import RealEstate.Systems.Text

/-!
# Comma-separated values

- `writeRow`: `csv.writer(...).writerow(row)`, in the dialect `excel`.
- `Reader`, `readCsv`: `csv.reader`, character by character.
- `readCsv_writeRows`: rows that have a field are read back, whatever their fields are.
-/

namespace RealEstate

namespace Systems

namespace Csv

/-! ### Writing -/

/-- What a field is quoted for. -/
def isSpecial (c : Char) : Bool := c = ',' || c = '"' || c = '\r' || c = '\n'

/-- Quotes are doubled. -/
def doubleQuotes (t : Text) : Text := t.flatMap fun c => if c = '"' then ['"', '"'] else [c]

/-- A field in quotes. -/
def quote (t : Text) : Text := '"' :: (doubleQuotes t ++ ['"'])

/-- A field, in quotes where it must be. -/
def writeField (t : Text) : Text := if t.any isSpecial then quote t else t

/-- The rest of a row, after its first field. -/
def writeRest (row : List Text) : Text := row.flatMap fun t => ',' :: writeField t

/-- A row. One empty field is quoted, or it would be no row. -/
def writeRow : List Text → Text
  | [] => ['\r', '\n']
  | [[]] => ['"', '"', '\r', '\n']
  | t :: row => writeField t ++ writeRest row ++ ['\r', '\n']

/-! ### Reading -/

/-- The states of the parser. -/
inductive Mode where
  | startRecord
  | startField
  | inField
  | inQuotedField
  | quoteInQuotedField
  /-- After a carriage return, which ends a line with or without a line feed. -/
  | eatLineFeed

/-- The state of a reader. -/
structure Reader where
  mode : Mode
  field : Text
  row : List Text
  rows : List (List Text)

/-- At the start. -/
def Reader.start : Reader := ⟨.startRecord, [], [], []⟩

/-- A character of the field. -/
def Reader.add (r : Reader) (mode : Mode) (c : Char) : Reader :=
  { r with mode, field := r.field ++ [c] }

/-- A field is complete. -/
def Reader.save (r : Reader) : Reader :=
  { r with mode := .startField, field := [], row := r.row ++ [r.field] }

/-- A line is complete. -/
def Reader.emit (r : Reader) (c : Char) : Reader :=
  { mode := if c = '\r' then .eatLineFeed else .startRecord
    field := []
    row := []
    rows := r.rows ++ [r.row] }

/-- A line ends. -/
def isNewline (c : Char) : Bool := c = '\r' || c = '\n'

/-- A character where a field may end. -/
def Reader.endOr (r : Reader) (other : Reader) (c : Char) : Reader :=
  if isNewline c then r.save.emit c else if c = ',' then r.save else other

/-- At the start of a field. -/
def Reader.feedField (r : Reader) (c : Char) : Reader :=
  r.endOr (if c = '"' then { r with mode := .inQuotedField } else r.add .inField c) c

/-- At the start of a record. -/
def Reader.feedRecord (r : Reader) (c : Char) : Reader :=
  if isNewline c then r.emit c else r.feedField c

/-- One character. -/
def Reader.feed (r : Reader) (c : Char) : Reader :=
  match r.mode with
  | .startRecord => r.feedRecord c
  | .startField => r.feedField c
  | .inField => r.endOr (r.add .inField c) c
  | .inQuotedField =>
    if c = '"' then { r with mode := .quoteInQuotedField } else r.add .inQuotedField c
  | .quoteInQuotedField =>
    if c = '"' then r.add .inQuotedField c else r.endOr (r.add .inField c) c
  | .eatLineFeed =>
    if c = '\n' then { r with mode := .startRecord } else r.feedRecord c

/-- The rows of a text; none if a quote is left open. -/
def readCsv (t : Text) : Option (List (List Text)) :=
  let r := t.foldl Reader.feed .start
  match r.mode with
  | .startRecord | .eatLineFeed => some r.rows
  | .startField | .inField | .quoteInQuotedField => some (r.rows ++ [r.row ++ [r.field]])
  | .inQuotedField => none

/-! ### Reading back -/

/-- A field was read, and what follows it says that it is complete. -/
structure Reader.Complete (r : Reader) (t : Text) (row : List Text) (rows : List (List Text)) :
    Prop where
  field : r.field = t
  row : r.row = row
  rows : r.rows = rows
  feed : ∀ c, (c = ',' ∨ isNewline c = true) → ∃ other, r.feed c = r.endOr other c

/-- A field in quotes is read back. -/
theorem foldl_quoted (t : Text) (field : Text) (row : List Text) (rows : List (List Text)) :
    (doubleQuotes t).foldl Reader.feed ⟨.inQuotedField, field, row, rows⟩ =
      ⟨.inQuotedField, field ++ t, row, rows⟩ := by
  induction t generalizing field with
  | nil => rw [List.append_nil]; rfl
  | cons c t ih =>
    have hone : (if c = '"' then ['"', '"'] else [c]).foldl Reader.feed
        ⟨.inQuotedField, field, row, rows⟩ = ⟨.inQuotedField, field ++ [c], row, rows⟩ := by
      split
      · next hc =>
        cases hc
        rfl
      · next hc => exact if_neg hc
    rw [doubleQuotes, List.flatMap_cons, List.foldl_append, hone]
    exact (ih (field ++ [c])).trans (by rw [List.append_assoc]; rfl)

theorem foldl_plain {t : Text} (ht : t.any isSpecial = false) (field : Text) (row : List Text)
    (rows : List (List Text)) : t.foldl Reader.feed ⟨.inField, field, row, rows⟩ =
      ⟨.inField, field ++ t, row, rows⟩ := by
  induction t generalizing field with
  | nil => rw [List.append_nil]; rfl
  | cons c t ih =>
    obtain ⟨hc, ht⟩ := Bool.or_eq_false_iff.1 ht
    have hone : Reader.feed ⟨.inField, field, row, rows⟩ c =
        ⟨.inField, field ++ [c], row, rows⟩ := by
      simp only [isSpecial, Bool.or_eq_false_iff, decide_eq_false_iff_not] at hc
      simp [Reader.feed, Reader.endOr, Reader.add, isNewline, hc]
    rw [List.foldl_cons, hone, ih ht, List.append_assoc]
    rfl

/-- A field is read, at the start of a row or after a comma. -/
theorem complete_writeField {mode : Mode} {row : List Text} {rows : List (List Text)}
    (hmode : ∀ c, isNewline c = false →
      Reader.feed ⟨mode, [], row, rows⟩ c = Reader.feedField ⟨mode, [], row, rows⟩ c)
    (t : Text) (hempty : t = [] → mode = .startField) :
    ((writeField t).foldl Reader.feed ⟨mode, [], row, rows⟩).Complete t row rows := by
  rw [writeField]
  split
  · -- quoted: from the opening quote to the closing one
    have hopen : Reader.feed ⟨mode, [], row, rows⟩ '"' = ⟨.inQuotedField, [], row, rows⟩ :=
      (hmode '"' (by decide)).trans rfl
    rw [quote, List.foldl_cons, hopen, List.foldl_append, foldl_quoted]
    refine ⟨rfl, rfl, rfl, fun c hc => ⟨_, if_neg ?_⟩⟩
    rintro rfl
    rcases hc with hc | hc
    · -- What follows the closing quote is a delimiter or a line's end, no second quote.
      cases hc
    · cases hc
  · next hspecial =>
    have hplain := Bool.eq_false_iff.2 hspecial
    cases t with
    | nil =>
      -- An empty field is written only where the row has another one.
      cases hempty rfl
      exact ⟨rfl, rfl, rfl, fun c _ => ⟨_, rfl⟩⟩
    | cons c t =>
      obtain ⟨hc, ht⟩ := Bool.or_eq_false_iff.1 hplain
      simp only [isSpecial, Bool.or_eq_false_iff, decide_eq_false_iff_not] at hc
      have hone : Reader.feed ⟨mode, [], row, rows⟩ c = ⟨.inField, [c], row, rows⟩ := by
        rw [hmode c (by simp [isNewline, hc])]
        simp [Reader.feedField, Reader.endOr, Reader.add, isNewline, hc]
      rw [List.foldl_cons, hone, foldl_plain ht]
      exact ⟨rfl, rfl, rfl, fun c _ => ⟨_, rfl⟩⟩

/-- The rest of a row is read, and the row is complete. -/
theorem foldl_writeRest (us : List Text) : ∀ {r : Reader} {t : Text} {row : List Text}
    {rows : List (List Text)}, r.Complete t row rows →
    (writeRest us ++ ['\r', '\n']).foldl Reader.feed r =
      ⟨.startRecord, [], [], rows ++ [row ++ t :: us]⟩ := by
  induction us with
  | nil =>
    rintro r t row rows ⟨rfl, rfl, rfl, hfeed⟩
    obtain ⟨other, hcr⟩ := hfeed '\r' (.inr rfl)
    show Reader.feed (r.feed '\r') '\n' = _
    rw [hcr]
    rfl
  | cons u us ih =>
    rintro r t row rows ⟨rfl, rfl, rfl, hfeed⟩
    obtain ⟨other, hcomma⟩ := hfeed ',' (.inl rfl)
    have hsave : r.feed ',' = ⟨.startField, [], r.row ++ [r.field], r.rows⟩ := hcomma.trans rfl
    have hnext := @complete_writeField .startField (r.row ++ [r.field]) r.rows (fun _ _ => rfl) u
      fun _ => rfl
    rw [writeRest, List.flatMap_cons, List.cons_append, List.cons_append, List.foldl_cons, hsave,
      List.append_assoc, List.foldl_append]
    exact (ih hnext).trans (by rw [List.append_assoc]; rfl)

theorem foldl_writeRow {row : List Text} (hrow : row ≠ []) (rows : List (List Text)) :
    (writeRow row).foldl Reader.feed ⟨.startRecord, [], [], rows⟩ =
      ⟨.startRecord, [], [], rows ++ [row]⟩ := by
  have hstart : ∀ c, isNewline c = false → Reader.feed ⟨.startRecord, [], [], rows⟩ c =
      Reader.feedField ⟨.startRecord, [], [], rows⟩ c := fun c hc =>
    if_neg (by rw [hc]; exact Bool.false_ne_true)
  match row, hrow with
  | [[]], _ => rfl
  | [] :: u :: us, _ =>
    -- the row begins with a comma, which is read as after a field
    exact foldl_writeRest (u :: us) (r := ⟨.startField, [], [], rows⟩)
      ⟨rfl, rfl, rfl, fun c _ => ⟨_, rfl⟩⟩
  | (c :: t) :: us, _ =>
    rw [writeRow, List.append_assoc, List.foldl_append]
    · exact foldl_writeRest us (complete_writeField hstart (c :: t) fun h => by cases h)
    · exact fun h => by cases h

theorem foldl_writeRows {written : List (List Text)} (h : ∀ row ∈ written, row ≠ []) :
    ∀ rows, (written.flatMap writeRow).foldl Reader.feed ⟨.startRecord, [], [], rows⟩ =
      ⟨.startRecord, [], [], rows ++ written⟩ := by
  induction written with
  | nil =>
    intro rows
    rw [List.append_nil]
    rfl
  | cons row written ih =>
    intro rows
    rw [List.flatMap_cons, List.foldl_append, foldl_writeRow (h row List.mem_cons_self),
      ih fun row hrow => h row (List.mem_cons_of_mem _ hrow), List.append_assoc]
    rfl

/-- Rows are read back, whatever commas, quotes and line breaks their fields contain. -/
theorem readCsv_writeRows {rows : List (List Text)} (h : ∀ row ∈ rows, row ≠ []) :
    readCsv (rows.flatMap writeRow) = some rows := by
  rw [readCsv, Reader.start, foldl_writeRows h]
  rfl

end Csv

end Systems

end RealEstate
