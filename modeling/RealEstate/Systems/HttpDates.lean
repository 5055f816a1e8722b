import RealEstate.Systems.Datetimes
import RealEstate.Systems.Integers
import RealEstate.Systems.JsonText

/-!
# Dates in header fields (`email.utils`)

`parsedate_to_datetime` reads more than the three formats of HTTP: a missing or misplaced day of
the week, two-digit years, numeric zones. A field holds Latin-1, so the case of letters matters
for ASCII only.

- `parsedateToDatetime`: its result, or the exception that it raises.
- `formatDatetime`: `format_datetime(t, usegmt=True)`.
- `Datetime.moment_atSecond`: what `replace(microsecond=0)` makes of an instant.
-/

namespace RealEstate

namespace Systems

/-! ### Words -/

/-- `t.lower()`. -/
def lowered (t : Text) : Text := t.map Char.toLower

/-- `t.upper()`. -/
def uppered (t : Text) : Text := t.map Char.toUpper

/-- `t[:-1] if t[-1] == "," else t`. -/
def dropComma (t : Text) : Text := if t.getLast? = some ',' then t.dropLast else t

/-- `c.isdigit()`, of a Latin-1 character. -/
def isDigitChar (c : Char) : Bool := c.isDigit || c ∈ ['²', '³', '¹']

/-! ### Reading -/

/-- `_daynames`. -/
def dayNames : List Text := ["mon", "tue", "wed", "thu", "fri", "sat", "sun"].map String.toList

/-- `_monthnames`. -/
def monthNames : List Text :=
  (["jan", "feb", "mar", "apr", "may", "jun", "jul", "aug", "sep", "oct", "nov", "dec",
    "january", "february", "march", "april", "may", "june", "july", "august", "september",
    "october", "november", "december"]).map String.toList

/-- `_timezones`. -/
def timezones : List (Text × Int) :=
  [("UT", 0), ("UTC", 0), ("GMT", 0), ("Z", 0), ("AST", -400), ("ADT", -300), ("EST", -500),
    ("EDT", -400), ("CST", -600), ("CDT", -500), ("MST", -700), ("MDT", -600), ("PST", -800),
    ("PDT", -700)].map fun zone => (zone.1.toList, zone.2)

/-- The day of the week is skipped, whether or not a blank follows its comma. -/
def skipDayName : List Text → List Text
  | [] => []
  | w :: ws =>
    if w.getLast? = some ',' ∨ lowered w ∈ dayNames then ws else (rpartition ',' w).2.2 :: ws

/-- The date of RFC 850 is one word. -/
def splitDashes : List Text → List Text
  | [date, time, zone] =>
    match date.splitOn '-' with
    | [d, m, y] => [d, m, y, time, zone]
    | _ => [date, time, zone]
  | ws => ws

/-- The zone may follow the time without a blank, or be missing. -/
def splitZone : List Text → List Text
  | [d, m, y, time] =>
    let sign := if '+' ∈ time then '+' else '-'
    let i := time.idxOf sign
    if sign ∈ time ∧ 0 < i then [d, m, y, time.take i, time.drop i] else [d, m, y, time, []]
  | ws => ws

/-- The month, and the day that stands before or after it. -/
def dayAndMonth (d m : Text) : Option (Text × Nat) :=
  if lowered m ∈ monthNames then some (d, monthNames.idxOf (lowered m) % 12 + 1)
  else if lowered d ∈ monthNames then
    some (lowered m, monthNames.idxOf (lowered d) % 12 + 1)
  else none

/-- Hours, minutes and seconds. -/
def timeParts (t : Text) : Option (Text × Text × Text) :=
  let three : List Text → Option (Text × Text × Text)
    | [h, m] => some (h, m, ['0'])
    | [h, m, s] => some (h, m, s)
    | _ => none
  match t.splitOn ':' with
  | [t] => if '.' ∈ t then three (t.splitOn '.') else none
  | parts => three parts

/-- A year of two digits, as POSIX reads it. -/
def fullYear (y : Int) : Int := if y < 100 then if 68 < y then y + 1900 else y + 2000 else y

/-- `-500` is five hours west. -/
def zoneSeconds (n : Int) : Int :=
  let seconds : Int := ((n.natAbs / 100 * 3600 + n.natAbs % 100 * 60 : Nat) : Int)
  if n < 0 then -seconds else seconds

/-- The offset from UTC in seconds; `-0000` and unknown names have none. -/
def zoneOffset (zone : Text) : Option Int :=
  let zone := uppered zone
  match timezones.lookup zone with
  | some n => some (zoneSeconds n)
  | none =>
    match parseInt 10 zone with
    | some n => if n = 0 ∧ zone.head? = some '-' then none else some (zoneSeconds n)
    | none => none

/-- What `_parsedate_tz` returns. -/
structure DateTuple where
  year : Int
  month : Nat
  day : Int
  hour : Int
  minute : Int
  second : Int
  zone : Option Int

/-- `_parsedate_tz`, of the five words. -/
def tupleOf (d m y time zone : Text) : Option DateTuple := do
  if d = [] ∨ m = [] ∨ y = [] then none
  let (d, month) ← dayAndMonth d m
  let d := dropComma d
  let (y, time) := if ':' ∈ y ∧ y.head? ≠ some ':' then (time, y) else (y, time)
  let y := dropComma y
  if y = [] then none
  let (y, zone) := if y.head?.any isDigitChar then (y, zone) else (zone, y)
  let (h, min, s) ← timeParts (dropComma time)
  let year ← parseInt 10 y
  let day ← parseInt 10 d
  let hour ← parseInt 10 h
  let minute ← parseInt 10 min
  let second ← parseInt 10 s
  return ⟨fullYear year, month, day, hour, minute, second, zoneOffset zone⟩

/-- `_parsedate_tz`. -/
def parsedateTz (t : Text) : Option DateTuple :=
  match splitZone (splitDashes (skipDayName (words t))) with
  | d :: m :: y :: time :: zone :: _ => tupleOf d m y time zone
  | _ => none

/-- Whether an integer fits a C `int`. -/
def IsCInt (n : Int) : Prop := -2147483648 ≤ n ∧ n ≤ 2147483647

/-- Two comparisons. -/
instance (n : Int) : Decidable (IsCInt n) := by
  unfold IsCInt
  infer_instance

/-- `timezone(timedelta(seconds=n))`, in microseconds. -/
def timezoneOf (n : Int) : Except PyException Int :=
  if n / 86400 < -999999999 ∨ 999999999 < n / 86400 then .error .overflowError
  else if n.natAbs < 86400 then .ok (n * 1000000)
  else .error .valueError

/-- `datetime(year, month, day, hour, minute, second, tzinfo=tzinfo)`. -/
def datetimeOfTuple (p : DateTuple) (offset : Option Int) : Except PyException Datetime :=
  if ¬(IsCInt p.year ∧ IsCInt p.day ∧ IsCInt p.hour ∧ IsCInt p.minute ∧ IsCInt p.second) then
    .error .overflowError
  else if 0 ≤ p.year ∧ 0 ≤ p.day ∧ 0 ≤ p.hour ∧ 0 ≤ p.minute ∧ 0 ≤ p.second then
    let fields : DatetimeFields := ⟨p.year.toNat, p.month, p.day.toNat, p.hour.toNat,
      p.minute.toNat, p.second.toNat, 0, offset⟩
    if h : fields.Valid then .ok ⟨fields, h⟩ else .error .valueError
  else .error .valueError

/-- `parsedate_to_datetime`. -/
def parsedateToDatetime (t : Text) : Except PyException Datetime :=
  match parsedateTz t with
  | none => .error .valueError
  | some p =>
    match p.zone with
    | none => datetimeOfTuple p none
    | some n => timezoneOf n >>= fun offset => datetimeOfTuple p (some offset)

/-! ### Writing -/

/-- The day of the week of an ordinal. -/
def weekdayText (ordinal : Nat) : Text :=
  (["Mon", "Tue", "Wed", "Thu", "Fri", "Sat", "Sun"].getD ((ordinal + 6) % 7) "").toList

/-- The month, in English. -/
def monthText (month : Nat) : Text :=
  (["Jan", "Feb", "Mar", "Apr", "May", "Jun", "Jul", "Aug", "Sep", "Oct", "Nov", "Dec"].getD
    (month - 1) "").toList

/-- `format_datetime(t, usegmt=True)`. -/
def formatDatetime (t : Datetime) : Except PyException Text :=
  let d := t.val
  if d.offset = some 0 then
    .ok (weekdayText (ymdToOrd d.year d.month d.day) ++ ',' :: ' ' :: two d.day ++
      ' ' :: monthText d.month ++ ' ' :: numeral 10 4 d.year ++ ' ' :: two d.hour ++
      ':' :: two d.minute ++ ':' :: two d.second ++ " GMT".toList)
  else .error .valueError

/-! ### Instants -/

/-- `t if t.tzinfo is not None else t.replace(tzinfo=UTC)`. -/
def Datetime.asUtc (t : Datetime) : Datetime :=
  match h : t.val.offset with
  | some _ => t
  | none => ⟨{ t.val with offset := some 0 }, by
      obtain ⟨hyear, hmonth, hday, hhour, hminute, hsecond, hmicro, -⟩ := t.property
      refine ⟨hyear, hmonth, hday, hhour, hminute, hsecond, hmicro, ?_⟩
      rintro o ⟨⟩
      decide⟩

/-- The instant, in microseconds; a naive time is in UTC. -/
def Datetime.moment (t : Datetime) : Int := t.val.micros - t.val.offset.getD 0

/-- `t.replace(microsecond=0)`. -/
def Datetime.atSecond (t : Datetime) : Datetime :=
  ⟨{ t.val with microsecond := 0 }, by
    obtain ⟨hyear, hmonth, hday, hhour, hminute, hsecond, -, hoffset⟩ := t.property
    exact ⟨hyear, hmonth, hday, hhour, hminute, hsecond, Nat.zero_lt_succ _, hoffset⟩⟩

/-- An offset of whole seconds. -/
def Datetime.WholeOffset (t : Datetime) : Prop := ∃ n : Int, t.val.offset.getD 0 = n * 1000000

section

variable {t : Datetime}

/-- A time without a zone is taken as UTC. -/
theorem Datetime.moment_asUtc (t : Datetime) : t.asUtc.moment = t.moment := by
  unfold Datetime.asUtc
  split
  · rfl
  · next h =>
    unfold Datetime.moment
    rw [h]
    rfl

theorem Datetime.offset_asUtc (t : Datetime) :
    t.asUtc.val.offset = some (t.val.offset.getD 0) := by
  unfold Datetime.asUtc
  split
  · next h => rw [h]; rfl
  · next h => rw [h]; rfl

/-- Without its microseconds, a time is at the start of its second. -/
theorem Datetime.moment_atSecond (h : t.WholeOffset) :
    t.atSecond.moment = t.moment / 1000000 * 1000000 := by
  obtain ⟨n, hn⟩ := h
  have hmicro : t.val.microsecond < 1000000 := t.property.2.2.2.2.2.2.1
  show (DatetimeFields.micros { t.val with microsecond := 0 }) - t.val.offset.getD 0 = _
  unfold Datetime.moment DatetimeFields.micros
  rw [hn]
  dsimp only
  omega

/-- What is read from a header field has an offset of whole seconds. -/
theorem wholeOffset_of_parsed {text : Text} (h : parsedateToDatetime text = .ok t) :
    t.WholeOffset := by
  have hoffset : ∀ {p offset}, datetimeOfTuple p offset = .ok t → t.val.offset = offset := by
    intro p offset h
    unfold datetimeOfTuple at h
    dsimp only at h
    split_ifs at h
    cases h
    rfl
  unfold parsedateToDatetime at h
  cases hp : parsedateTz text with
  | none =>
    rw [hp] at h
    cases h
  | some p =>
    rw [hp] at h
    dsimp only at h
    cases hz : p.zone with
    | none =>
      -- Without a zone the time is taken as UTC.
      rw [hz] at h
      exact ⟨0, by rw [hoffset h]; rfl⟩
    | some n =>
      rw [hz] at h
      dsimp only at h
      unfold timezoneOf at h
      -- A zone has whole seconds, or the date does not parse.
      split_ifs at h
      · cases h
      · exact ⟨n, by rw [hoffset h]; rfl⟩
      · cases h

end

end Systems

end RealEstate
