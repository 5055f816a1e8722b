import Mathlib.Data.List.GetD
import RealEstate.Systems.Decimals
import RealEstate.Systems.Unicode

/-!
# Dates and times and their text

- `isoformat`, `fromisoformat`: `t.isoformat()` and `datetime.fromisoformat(text)`, as the C
  code reads it: from the bytes of the text, which a NUL ends.
- `fromisoformat_isoformat`: a time in UTC is read back.
-/

namespace RealEstate

namespace Systems

/-! ### The calendar -/

/-- `_is_leap`. -/
def isLeap (year : Nat) : Bool := year % 4 = 0 ∧ (year % 100 ≠ 0 ∨ year % 400 = 0)

/-- `_days_in_month`. -/
def daysInMonth (year month : Nat) : Nat :=
  if month = 2 then if isLeap year then 29 else 28
  else if month = 4 ∨ month = 6 ∨ month = 9 ∨ month = 11 then 30
  else 31

/-- Days of a year before a month of it. -/
def daysBeforeMonth (year month : Nat) : Nat :=
  ((List.range' 1 (month - 1)).map (daysInMonth year)).sum

/-- `_days_before_year`. -/
def daysBeforeYear (year : Nat) : Nat :=
  (year - 1) * 365 + (year - 1) / 4 - (year - 1) / 100 + (year - 1) / 400

/-- `date.toordinal`: the first of January of year 1 is day 1. -/
def ymdToOrd (year month day : Nat) : Nat :=
  daysBeforeYear year + daysBeforeMonth year month + day

/-- `_ord2ymd`. -/
def ordToYmd (ordinal : Nat) : Nat × Nat × Nat :=
  let n := ordinal - 1
  let n400 := n / 146097
  let n := n % 146097
  let n100 := n / 36524
  let n := n % 36524
  let n4 := n / 1461
  let n := n % 1461
  let n1 := n / 365
  let n := n % 365
  let year := n400 * 400 + 1 + n100 * 100 + n4 * 4 + n1
  if n1 = 4 ∨ n100 = 4 then (year - 1, 12, 31)
  else
    let month := (n + 50) / 32
    let month := if n < daysBeforeMonth year month then month - 1 else month
    (year, month, n - daysBeforeMonth year month + 1)

/-- The Monday of the first week of a year. -/
def isoWeek1Monday (year : Nat) : Nat :=
  let first := ymdToOrd year 1 1
  let weekday := (first + 6) % 7
  if 3 < weekday then first - weekday + 7 else first - weekday

/-- The date of a day of a week of a year. -/
def isoToYmd (year week day : Nat) : Option (Nat × Nat × Nat) :=
  let weekday := (ymdToOrd year 1 1 + 6) % 7
  let long := weekday = 3 ∨ (weekday = 2 ∧ isLeap year)
  if 1 ≤ year ∧ 1 ≤ week ∧ (week ≤ 52 ∨ (week = 53 ∧ long)) ∧ 1 ≤ day ∧ day ≤ 7 then
    some (ordToYmd (isoWeek1Monday year + (week - 1) * 7 + (day - 1)))
  else none

/-! ### Times -/

/-- The fields of a `datetime`: its offset from UTC is in microseconds, and a naive one has none. -/
structure DatetimeFields where
  year : Nat
  month : Nat
  day : Nat
  hour : Nat
  minute : Nat
  second : Nat
  microsecond : Nat
  offset : Option Int
  deriving DecidableEq

/-- What the constructor checks. -/
def DatetimeFields.Valid (t : DatetimeFields) : Prop :=
  (1 ≤ t.year ∧ t.year ≤ 9999) ∧ (1 ≤ t.month ∧ t.month ≤ 12) ∧
    (1 ≤ t.day ∧ t.day ≤ daysInMonth t.year t.month) ∧
    t.hour < 24 ∧ t.minute < 60 ∧ t.second < 60 ∧ t.microsecond < 1000000 ∧
    ∀ o ∈ t.offset, o.natAbs < 86400000000

/-- Comparisons of fields. -/
instance (t : DatetimeFields) : Decidable t.Valid := by
  unfold DatetimeFields.Valid
  infer_instance

/-- A `datetime.datetime`. -/
abbrev Datetime := { t : DatetimeFields // t.Valid }

/-- The microseconds on a clock that shows these fields. -/
def DatetimeFields.micros (t : DatetimeFields) : Int :=
  ((ymdToOrd t.year t.month t.day * 24 + t.hour) * 60 + t.minute) * 60000000 +
    t.second * 1000000 + t.microsecond

/-- The instant of an aware `datetime`. -/
def Datetime.instant (t : Datetime) : Option Int :=
  t.val.offset.map fun offset => t.val.micros - offset

/-! ### Writing -/

/-- `f"{n:02d}"`. -/
def two (n : Nat) : Text := numeral 10 2 n

/-- An offset from UTC: seconds and microseconds only if there are any. -/
def offsetText (offset : Int) : Text :=
  let n := offset.natAbs
  (if offset < 0 then '-' else '+') :: two (n / 3600000000) ++ ':' :: two (n / 60000000 % 60) ++
    if n % 60000000 = 0 then []
    else ':' :: two (n / 1000000 % 60) ++
      if n % 1000000 = 0 then [] else '.' :: numeral 10 6 (n % 1000000)

/-- `t.isoformat()`. -/
def isoformat (t : DatetimeFields) : Text :=
  numeral 10 4 t.year ++ '-' :: (two t.month ++ '-' :: (two t.day ++ 'T' ::
    (two t.hour ++ ':' :: (two t.minute ++ ':' :: (two t.second ++
      ((if t.microsecond = 0 then [] else '.' :: numeral 10 6 t.microsecond) ++
        t.offset.elim [] offsetText))))))

/-! ### Reading -/

/-- A number of exactly `n` digits, and the rest. -/
def takeDigits : Nat → Text → Option (Nat × Text)
  | 0, t => some (0, t)
  | _ + 1, [] => none
  | n + 1, c :: t =>
    if c.isDigit then
      (takeDigits n t).map fun (value, rest) => ((c.toNat - 48) * 10 ^ n + value, rest)
    else none

/-- The first character; a NUL at the end. -/
def first (t : Text) : Char := t.headD '\x00'

/-- Where the date ends. In the formats without a day of the week, the digits that follow tell
whether one is there. -/
def separatorAt (t : Text) : Nat :=
  let at' i := t.getD i '\x00'
  if t.length = 7 then 7
  else if at' 4 = '-' then
    if at' 5 = 'W' then
      if 8 < t.length ∧ at' 8 = '-' then
        if 10 < t.length ∧ (at' 10).isDigit then 8 else 10
      else 8
    else 10
  else if at' 4 = 'W' then
    let pos := 7 + ((t.drop 7).takeWhile Char.isDigit).length
    if pos < 9 then pos else if pos % 2 = 0 then 7 else 8
  else 8

/-- A date of `len` characters: of a month, or of a week. -/
def parseDate (len : Nat) (t : Text) : Option (Nat × Nat × Nat) := do
  let (year, t) ← takeDigits 4 t
  let dash := first t = '-'
  let t := if dash then t.drop 1 else t
  if first t = 'W' then
    let (week, t) ← takeDigits 2 (t.drop 1)
    if (if dash then 8 else 7) < len then
      if dash ∧ first t ≠ '-' then none
      let (day, _) ← takeDigits 1 (if dash then t.drop 1 else t)
      isoToYmd year week day
    else isoToYmd year week 1
  else
    let (month, t) ← takeDigits 2 t
    if dash ∧ first t ≠ '-' then none
    let (day, _) ← takeDigits 2 (if dash then t.drop 1 else t)
    if (if dash then 10 else 8) = len then some (year, month, day) else none

/-- A time of day, and whether the text goes on after it. -/
structure TimeOfDay where
  hour : Nat
  minute : Nat
  second : Nat
  microsecond : Nat
  more : Bool

/-- The digits after the decimal mark, of which six count. -/
def parseFraction (len : Nat) (t : Text) : Option (Nat × Bool) := do
  let digits := min len 6
  let (value, t) ← takeDigits digits t
  return (value * 10 ^ (6 - digits), first (t.dropWhile Char.isDigit) ≠ '\x00')

/-- `HH[:MM[:SS[.ffffff]]]` of `len` characters, or the same without colons. -/
def parseTimeOfDay (len : Nat) (t : Text) : Option TimeOfDay := do
  let (hour, t) ← takeDigits 2 t
  let c := first t
  let colons := c = ':'
  if len ≤ 3 then return ⟨hour, 0, 0, 0, c ≠ '\x00'⟩
  if c = '.' ∨ c = ',' then none
  let (len, t) := if colons then (len - 3, t.drop 1) else (len - 2, t)
  let (minute, t) ← takeDigits 2 t
  let c := first t
  if len ≤ 3 then return ⟨hour, minute, 0, 0, c ≠ '\x00'⟩
  if c = '.' ∨ c = ',' ∨ (colons ∧ c ≠ ':') then none
  let (len, t) := if colons then (len - 3, t.drop 1) else (len - 2, t)
  let (second, t) ← takeDigits 2 t
  let c := first t
  if len ≤ 3 then return ⟨hour, minute, second, 0, c ≠ '\x00'⟩
  if colons ∧ c ≠ '.' ∧ c ≠ ',' then none
  let (len, t) := if c = '.' ∨ c = ',' then (len - 3, t.drop 1) else (len - 2, t)
  let (microsecond, more) ← parseFraction len t
  return ⟨hour, minute, second, microsecond, more⟩

/-- The start of a time zone. -/
def isZone (c : Char) : Bool := c = '+' || c = '-' || c = 'Z'

/-- A time of day with the offset from UTC, if there is one. -/
def parseTime (t : Text) : Option (TimeOfDay × Option Int) := do
  let len := (t.takeWhile (!isZone ·)).length
  let time ← parseTimeOfDay len t
  match t.drop len with
  | [] => if time.more then none else return (time, none)
  | 'Z' :: t => if first t = '\x00' then return (time, some 0) else none
  | sign :: t =>
    let zone ← parseTimeOfDay t.length t
    if zone.more then none
    let offset : Nat :=
      (zone.hour * 3600 + zone.minute * 60 + zone.second) * 1000000 + zone.microsecond
    return (time, some (if sign = '-' then -offset else offset))

/-- The bytes of the separator. -/
def separatorLength (c : Char) : Nat :=
  if c.toNat < 0x80 then 1 else if c.toNat < 0xE0 then 2 else if c.toNat < 0xF0 then 3 else 4

/-- The text of the bytes, a character each. -/
def byteText (t : Text) : Text := (encodeUtf8 t).map fun b => Char.ofNat b

/-- `datetime.fromisoformat(text)`, with `none` for a `ValueError`. -/
def fromisoformat (t : Text) : Option Datetime := do
  let t := byteText t
  if t.length < 7 then none
  let sep := separatorAt t
  let (year, month, day) ← parseDate sep t
  let (time, offset) ←
    if sep < t.length then parseTime (t.drop (sep + separatorLength (first (t.drop sep))))
    else some (⟨0, 0, 0, 0, false⟩, none)
  let fields : DatetimeFields :=
    ⟨year, month, day, time.hour, time.minute, time.second, time.microsecond, offset⟩
  if h : fields.Valid then some ⟨fields, h⟩ else none

/-! ### Round trip -/

/-- Digits of a fixed width are read back. -/
theorem takeDigits_map (t : Text) : ∀ {ds : List Nat}, (∀ d ∈ ds, d < 10) →
    takeDigits ds.length (ds.map Nat.digitChar ++ t) = some (Nat.ofDigits 10 ds.reverse, t)
  | [], _ => rfl
  | d :: ds, h => by
    have hdigit : ∀ d < 10,
        (Nat.digitChar d).isDigit = true ∧ (Nat.digitChar d).toNat - 48 = d := by decide
    obtain ⟨hc, hvalue⟩ := hdigit d (h d List.mem_cons_self)
    rw [List.length_cons, List.map_cons, List.cons_append, takeDigits, if_pos hc,
      takeDigits_map t fun e he => h e (List.mem_cons_of_mem d he), Option.map_some, hvalue,
      List.reverse_cons, Nat.ofDigits_append, Nat.ofDigits_singleton, List.length_reverse,
      Nat.add_comm, Nat.mul_comm]

/-- A number of a fixed width is read back. -/
theorem takeDigits_numeral {width n : Nat} (h : n < 10 ^ width) (t : Text) :
    takeDigits width (numeral 10 width n ++ t) = some (n, t) := by
  have hdigits : ∀ d ∈ (Nat.digitsAppend 10 width n).reverse, d < 10 := fun d hd =>
    Nat.lt_of_mem_digitsAppend (by decide) width d (List.mem_reverse.1 hd)
  have hread := takeDigits_map t hdigits
  rw [List.length_reverse, Nat.length_digitsAppend (by decide) width h, List.reverse_reverse,
    Nat.digitsAppend, Nat.ofDigits_append_replicate_zero, Nat.ofDigits_digits] at hread
  exact hread

theorem takeDigits_two {n : Nat} (h : n < 100) (t : Text) :
    takeDigits 2 (two n ++ t) = some (n, t) :=
  @takeDigits_numeral 2 n h t

/-- A number begins with a digit. -/
theorem first_numeral {width n : Nat} (hwidth : 0 < width) (t : Text) :
    (first (numeral 10 width n ++ t)).isDigit = true := by
  obtain ⟨c, cs, hcs⟩ := List.exists_cons_of_ne_nil (numeral_ne_nil (b := 10) (n := n) hwidth)
  rw [hcs]
  exact isDigit_of_mem_numeral (hcs ▸ List.mem_cons_self)

theorem ne_of_isDigit {c d : Char} (hc : c.isDigit = true) (hd : d.isDigit = false) : c ≠ d := by
  rintro rfl
  rw [hc] at hd
  cases hd

/-- The date of a text that `isoformat` wrote. -/
def dateText (year month day : Nat) (t : Text) : Text :=
  numeral 10 4 year ++ '-' :: (two month ++ '-' :: (two day ++ t))

theorem parseDate_dateText {year month day : Nat} (hyear : year < 10000) (hmonth : month < 100)
    (hday : day < 100) (t : Text) :
    parseDate 10 (dateText year month day t) = some (year, month, day) := by
  have hfirst : first (two month ++ '-' :: (two day ++ t)) ≠ 'W' :=
    ne_of_isDigit (first_numeral (by decide) _) (by decide)
  have hdash : ∀ t, first ('-' :: t) = '-' := fun _ => rfl
  rw [parseDate, dateText, takeDigits_numeral hyear]
  simp [hdash, hfirst, takeDigits_two hmonth, takeDigits_two hday]

/-- The separator is after ten characters. -/
theorem separatorAt_dateText {year month day : Nat} (hyear : year < 10000) (hday : day < 100)
    (t : Text) : separatorAt (dateText year month day t) = 10 := by
  have hlength : (numeral 10 4 year).length = 4 := length_numeral (by decide) hyear
  have hlong : (dateText year month day t).length ≠ 7 := by
    have hday : (two day).length = 2 := length_numeral (by decide) hday
    have hmonth : 1 ≤ (two month).length := List.length_pos_iff.2 (numeral_ne_nil (by decide))
    simp only [dateText, List.length_append, List.length_cons]
    omega
  have hafter : ∀ i, (dateText year month day t).getD (4 + i) '\x00' =
      ('-' :: (two month ++ '-' :: (two day ++ t))).getD i '\x00' := by
    intro i
    rw [dateText, List.getD_append_right _ _ _ _ (hlength.le.trans (Nat.le_add_right 4 i)), hlength,
      Nat.add_sub_cancel_left]
  have hdash : (dateText year month day t).getD 4 '\x00' = '-' := hafter 0
  have hweek : (dateText year month day t).getD 5 '\x00' ≠ 'W' := by
    have hfirst : (first (two month ++ '-' :: (two day ++ t))).isDigit = true :=
      first_numeral (by decide) _
    have hzero : ∀ t : Text, t.getD 0 '\x00' = first t := fun t => by cases t <;> rfl
    rw [hafter 1, List.getD_cons_succ, hzero]
    exact ne_of_isDigit hfirst (by decide)
  rw [separatorAt, if_neg hlong]
  dsimp only
  rw [if_pos hdash, if_neg hweek]

/-- The time of day of a text that `isoformat` wrote, without the microseconds. -/
def timeText (hour minute second : Nat) (t : Text) : Text :=
  two hour ++ ':' :: (two minute ++ ':' :: (two second ++ t))

/-- The offset of UTC. -/
def utcText : Text := ['+', '0', '0', ':', '0', '0']

theorem first_colon (t : Text) : first (':' :: t) = ':' := rfl

theorem first_point (t : Text) : first ('.' :: t) = '.' := rfl

theorem first_utcText : first utcText = '+' := rfl

section

variable {hour minute second microsecond : Nat} (hhour : hour < 100) (hminute : minute < 100)
  (hsecond : second < 100)
include hhour hminute hsecond

/-- A time of day is read back. -/
theorem parseTimeOfDay_timeText :
    parseTimeOfDay 8 (timeText hour minute second utcText) =
      some ⟨hour, minute, second, 0, true⟩ := by
  rw [parseTimeOfDay, timeText]
  simp [first_colon, takeDigits_two hhour, takeDigits_two hminute, takeDigits_two hsecond,
    first_utcText]

/-- With microseconds. -/
theorem parseTimeOfDay_fraction (hmicro : microsecond < 1000000) :
    parseTimeOfDay 15
        (timeText hour minute second ('.' :: (numeral 10 6 microsecond ++ utcText))) =
      some ⟨hour, minute, second, microsecond, true⟩ := by
  have hfraction : parseFraction 6 (numeral 10 6 microsecond ++ utcText) =
      some (microsecond, true) := by
    have hdigits := @takeDigits_numeral 6 microsecond hmicro utcText
    have hrest : first (utcText.dropWhile Char.isDigit) = '+' := by decide
    simp [parseFraction, hdigits, hrest]
  rw [parseTimeOfDay, timeText]
  simp [first_colon, first_point, takeDigits_two hhour, takeDigits_two hminute,
    takeDigits_two hsecond, hfraction]

end

/-- The microseconds of a time, unless there are none. -/
def microText (microsecond : Nat) : Text :=
  if microsecond = 0 then [] else '.' :: numeral 10 6 microsecond

section

variable {hour minute second microsecond : Nat}

/-- It has no character that begins a zone. -/
theorem isZone_eq_false {c : Char} (h : c ∈ timeText hour minute second (microText microsecond)) :
    isZone c = false := by
  have hdigit : ∀ {c : Char}, c.isDigit = true → isZone c = false := by
    intro c hc
    simp [isZone, ne_of_isDigit (d := '+') hc (by decide), ne_of_isDigit (d := '-') hc (by decide),
      ne_of_isDigit (d := 'Z') hc (by decide)]
  have htwo : ∀ {n}, c ∈ two n → isZone c = false := fun hc => hdigit (isDigit_of_mem_numeral hc)
  have hmicro : c ∈ microText microsecond → isZone c = false := by
    intro hc
    rw [microText] at hc
    split at hc
    · cases hc
    · rcases List.mem_cons.1 hc with rfl | hc
      · decide
      · exact hdigit (isDigit_of_mem_numeral hc)
  simp only [timeText, List.mem_append, List.mem_cons] at h
  rcases h with h | rfl | h | rfl | h | h
  · exact htwo h
  · decide
  · exact htwo h
  · decide
  · exact htwo h
  · exact hmicro h

variable (hhour : hour < 100) (hminute : minute < 100) (hsecond : second < 100)
  (hmicro : microsecond < 1000000)
include hhour hminute hsecond hmicro

/-- Its length tells whether it has a fraction. -/
theorem length_timeText : (timeText hour minute second (microText microsecond)).length =
    if microsecond = 0 then 8 else 15 := by
  have htwo : ∀ {n}, n < 100 → (two n).length = 2 := fun hn => length_numeral (by decide) hn
  have hsix : (numeral 10 6 microsecond).length = 6 := length_numeral (by decide) hmicro
  simp only [timeText, microText, List.length_append, List.length_cons, htwo hhour, htwo hminute,
    htwo hsecond]
  split
  · rfl
  · rw [List.length_cons, hsix]

/-- The time of day is read up to its zone, and the zone after it. -/
theorem parseTime_utc :
    parseTime (timeText hour minute second (microText microsecond ++ utcText)) =
      some (⟨hour, minute, second, microsecond, true⟩, some 0) := by
  have hzone : parseTimeOfDay 5 ['0', '0', ':', '0', '0'] = some ⟨0, 0, 0, 0, false⟩ := rfl
  have hlength := length_timeText hhour hminute hsecond hmicro
  generalize hlen : (if microsecond = 0 then 8 else 15) = len at hlength
  have hsplit : timeText hour minute second (microText microsecond ++ utcText) =
      timeText hour minute second (microText microsecond) ++ utcText := by
    simp [timeText, List.append_assoc]
  -- No character of the time belongs to a zone, so the text splits at the sign.
  have htake : ((timeText hour minute second (microText microsecond ++ utcText)).takeWhile
      (!isZone ·)).length = len := by
    have hnone : utcText.takeWhile (!isZone ·) = [] := by decide
    rw [hsplit, List.takeWhile_append_of_pos, hnone, List.append_nil, hlength]
    intro c hc
    rw [isZone_eq_false hc]
    rfl
  have hdrop : (timeText hour minute second (microText microsecond ++ utcText)).drop len =
      '+' :: ['0', '0', ':', '0', '0'] := by
    rw [hsplit, ← hlength, List.drop_left]
    rfl
  -- Without microseconds the fraction is left out, and is read as zero.
  have htime : parseTimeOfDay len (timeText hour minute second (microText microsecond ++ utcText)) =
      some ⟨hour, minute, second, microsecond, true⟩ := by
    rw [← hlen, microText]
    split
    · next hzero =>
      rw [hzero]
      exact parseTimeOfDay_timeText hhour hminute hsecond
    · exact parseTimeOfDay_fraction hhour hminute hsecond hmicro
  rw [parseTime]
  simp [htake, htime, hdrop, hzone]

end

/-- ASCII text is its own bytes. -/
theorem byteText_eq_self {t : Text} (h : ∀ c ∈ t, c.toNat < 0x80) : byteText t = t := by
  induction t with
  | nil => rfl
  | cons c t ih =>
    have hc := h c List.mem_cons_self
    have hbytes : utf8Bytes c.toNat = [byte c.toNat] := if_pos hc
    have htext : byteText (c :: t) = Char.ofNat (byte c.toNat).val :: byteText t := by
      rw [byteText, encodeUtf8, List.flatMap_cons, hbytes]
      rfl
    rw [htext, byte_val (Nat.lt_trans hc (by decide)), Char.ofNat_toNat,
      ih fun d hd => h d (List.mem_cons_of_mem c hd)]

/-- A time in UTC, as text. -/
theorem isoformat_utc {t : DatetimeFields} (h : t.offset = some 0) :
    isoformat t = dateText t.year t.month t.day
      ('T' :: timeText t.hour t.minute t.second (microText t.microsecond ++ utcText)) := by
  have hutc : offsetText 0 = utcText := by decide
  rw [isoformat, h, Option.elim_some, hutc]
  rfl

theorem DatetimeFields.Valid.day_lt {t : DatetimeFields} (h : t.Valid) : t.day < 100 := by
  have hdays : daysInMonth t.year t.month ≤ 31 := by
    unfold daysInMonth
    grind
  have hday := h.2.2.1.2
  omega

theorem drop_dateText {year month day : Nat} (hyear : year < 10000) (hmonth : month < 100)
    (hday : day < 100) (t : Text) : (dateText year month day t).drop 10 = t := by
  have hsplit : dateText year month day t =
      (numeral 10 4 year ++ '-' :: (two month ++ '-' :: two day)) ++ t := by
    simp [dateText, List.append_assoc]
  have hlength : (numeral 10 4 year ++ '-' :: (two month ++ '-' :: two day)).length = 10 := by
    have hfour : (numeral 10 4 year).length = 4 := length_numeral (by decide) hyear
    have htwo : ∀ {n}, n < 100 → (two n).length = 2 := fun hn => length_numeral (by decide) hn
    simp [hfour, htwo hmonth, htwo hday]
  rw [hsplit, List.drop_left' hlength]

theorem isoformat_ascii {t : DatetimeFields} (h : t.offset = some 0) :
    ∀ c ∈ isoformat t, c.toNat < 0x80 := by
  have hdigit : ∀ {c : Char} {width n}, c ∈ numeral 10 width n → c.toNat < 0x80 := fun hc =>
    Nat.lt_of_le_of_lt (isNumeric_of_isDigit (isDigit_of_mem_numeral hc)).2 (by decide)
  have hmicro : ∀ c ∈ microText t.microsecond, c.toNat < 0x80 := by
    intro c hc
    rw [microText] at hc
    split at hc
    · cases hc
    · rcases List.mem_cons.1 hc with rfl | hc
      · decide
      · exact hdigit hc
  have hutc : ∀ c ∈ utcText, c.toNat < 0x80 := by
    intro c hc
    simp only [utcText, List.mem_cons, List.not_mem_nil, or_false] at hc
    rcases hc with rfl | rfl | rfl | rfl | rfl | rfl <;> decide
  intro c hc
  simp only [isoformat_utc h, dateText, timeText, List.mem_append, List.mem_cons] at hc
  rcases hc with hc | rfl | hc | rfl | hc | rfl | hc | rfl | hc | rfl | hc | hc | hc
  all_goals first
    | exact hdigit hc
    | decide
    | exact hmicro c hc
    | exact hutc c hc

/-- **Times are read back** that are in UTC. -/
theorem fromisoformat_isoformat {t : Datetime} (h : t.val.offset = some 0) :
    fromisoformat (isoformat t.val) = some t := by
  obtain ⟨hyear, hmonth, -, hhour, hminute, hsecond, hmicro, -⟩ := t.property
  have hyear : t.val.year < 10000 := by omega
  have hmonth : t.val.month < 100 := by omega
  have hday := t.property.day_lt
  have hdate := isoformat_utc h
  -- The date is read, then the separator, and what is left is the time.
  have hdrop := drop_dateText hyear hmonth hday
    ('T' :: timeText t.val.hour t.val.minute t.val.second (microText t.val.microsecond ++ utcText))
  have hsep := @separatorAt_dateText _ t.val.month _ hyear hday
    ('T' :: timeText t.val.hour t.val.minute t.val.second (microText t.val.microsecond ++ utcText))
  have hread := parseDate_dateText hyear hmonth hday
    ('T' :: timeText t.val.hour t.val.minute t.val.second (microText t.val.microsecond ++ utcText))
  rw [← hdate] at hdrop hsep hread
  have htime := parseTime_utc (Nat.lt_trans hhour (by decide)) (Nat.lt_trans hminute (by decide))
    (Nat.lt_trans hsecond (by decide)) hmicro
  have hafter : (isoformat t.val).drop 11 = timeText t.val.hour t.val.minute t.val.second
      (microText t.val.microsecond ++ utcText) := by
    rw [← List.drop_drop (i := 1) (j := 10), hdrop]
    rfl
  have hlong : 10 < (isoformat t.val).length := by
    have hlength := congrArg List.length hdrop
    have hutc : utcText.length = 6 := rfl
    simp only [List.length_drop, List.length_cons, timeText, List.length_append] at hlength
    omega
  rw [fromisoformat, byteText_eq_self (isoformat_ascii h)]
  have hshort : ¬ (isoformat t.val).length < 7 := by omega
  have hone : separatorLength (first ('T' :: timeText t.val.hour t.val.minute t.val.second
      (microText t.val.microsecond ++ utcText))) = 1 := rfl
  have hfields : (⟨t.val.year, t.val.month, t.val.day, t.val.hour, t.val.minute, t.val.second,
      t.val.microsecond, some 0⟩ : DatetimeFields) = t.val := by
    rw [← h]
  simp [hsep, hread, hdrop, hlong, hshort, hone, hafter, htime, hfields, t.property]

end Systems

end RealEstate
