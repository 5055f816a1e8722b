import RealEstate.Systems.Base64

/-!
# Text as bytes

- `encodeUtf8`: `str.encode()`.
- `decodeJson`: the text of JSON bytes, whose encoding is told from their first ones:
  `b.decode(json.detect_encoding(b), "surrogatepass")`. A text holds no surrogates, so one that
  is passed reads as the replacement character.
- `decodeUtf8_encodeUtf8`: text is read back.
-/

namespace RealEstate

namespace Systems

/-- The character of a code point. -/
def chr (n : Nat) : Char := if 0xD800 ≤ n ∧ n < 0xE000 then '\uFFFD' else Char.ofNat n

theorem chr_toNat (c : Char) : chr c.toNat = c := by
  have hvalid : c.toNat < 0xD800 ∨ (0xDFFF < c.toNat ∧ c.toNat < 0x110000) := c.valid
  rw [chr, if_neg (by omega), Char.ofNat_toNat]

/-! ### UTF-8 -/

/-- The bytes of a code point. -/
def utf8Bytes (n : Nat) : Bytes :=
  if n < 0x80 then [byte n]
  else if n < 0x800 then [byte (0xC0 + n / 64), byte (0x80 + n % 64)]
  else if n < 0x10000 then
    [byte (0xE0 + n / 4096), byte (0x80 + n / 64 % 64), byte (0x80 + n % 64)]
  else
    [byte (0xF0 + n / 262144), byte (0x80 + n / 4096 % 64), byte (0x80 + n / 64 % 64),
      byte (0x80 + n % 64)]

/-- `t.encode()`. -/
def encodeUtf8 (t : Text) : Bytes := t.flatMap fun c => utf8Bytes c.toNat

/-- Decodes UTF-8 in the midst of a character: `need` of its bytes are missing, those read make
up `acc`, and it is at least `least`. -/
def utf8From (need acc least : Nat) : Bytes → Option Text
  | [] => if need = 0 then some [] else none
  | b :: t =>
    if need = 0 then
      if b.val < 0x80 then (utf8From 0 0 0 t).map (chr b :: ·)
      else if b.val < 0xC0 then none
      else if b.val < 0xE0 then utf8From 1 (b - 0xC0) 0x80 t
      else if b.val < 0xF0 then utf8From 2 (b - 0xE0) 0x800 t
      else if b.val < 0xF8 then utf8From 3 (b - 0xF0) 0x10000 t
      else none
    else if b.val < 0x80 ∨ 0xC0 ≤ b.val then none
    else
      let acc := acc * 64 + (b - 0x80)
      if need = 1 then
        if least ≤ acc ∧ acc < 0x110000 then (utf8From 0 0 0 t).map (chr acc :: ·) else none
      else utf8From (need - 1) acc least t

/-- `b.decode("utf-8", "surrogatepass")`, with `none` for a `UnicodeDecodeError`. -/
def decodeUtf8 (b : Bytes) : Option Text := utf8From 0 0 0 b

/-- `b.decode("latin-1")`. -/
def decodeLatin1 (b : Bytes) : Text := b.map fun n => Char.ofNat n

/-! ### UTF-16 and UTF-32 -/

/-- Numbers of two bytes each. -/
def units16 (big : Bool) : Bytes → Option (List Nat)
  | [] => some []
  | [_] => none
  | a :: b :: t =>
    (units16 big t).map ((if big then a * 256 + b else b * 256 + a : Nat) :: ·)

/-- Numbers of four bytes each, all code points. -/
def units32 (big : Bool) : Bytes → Option (List Nat)
  | [] => some []
  | a :: b :: c :: d :: t =>
    let n : Nat := if big then ((a * 256 + b) * 256 + c) * 256 + d
      else ((d * 256 + c) * 256 + b) * 256 + a
    if n < 0x110000 then (units32 big t).map (n :: ·) else none
  | _ => none

/-- A high surrogate. -/
def isHigh (n : Nat) : Bool := 0xD800 ≤ n ∧ n < 0xDC00

/-- A low surrogate. -/
def isLow (n : Nat) : Bool := 0xDC00 ≤ n ∧ n < 0xE000

/-- The code point of a surrogate pair. -/
def joinPair (high low : Nat) : Nat := 0x10000 + (high - 0xD800) * 1024 + (low - 0xDC00)

/-- Code points of UTF-16 units. -/
def joinPairs : List Nat → List Nat
  | [] => []
  | [n] => [n]
  | h :: l :: t =>
    if isHigh h && isLow l then joinPair h l :: joinPairs t else h :: joinPairs (l :: t)

/-- UTF-16, by pairs. -/
def decodeUtf16 (big : Bool) (b : Bytes) : Option Text :=
  (units16 big b).map fun units => (joinPairs units).map chr

/-- UTF-32. -/
def decodeUtf32 (big : Bool) (b : Bytes) : Option Text := (units32 big b).map (·.map chr)

/-- What `json.loads` makes of bytes: they begin with a byte order mark, or the zeros among the
first four tell the encoding of a text that begins with an ASCII character. -/
def decodeJson (b : Bytes) : Option Text :=
  if List.isPrefixOf [0x00, 0x00, 0xFE, 0xFF] b then decodeUtf32 true (b.drop 4)
  else if List.isPrefixOf [0xFF, 0xFE, 0x00, 0x00] b then decodeUtf32 false (b.drop 4)
  else if List.isPrefixOf [0xFE, 0xFF] b then decodeUtf16 true (b.drop 2)
  else if List.isPrefixOf [0xFF, 0xFE] b then decodeUtf16 false (b.drop 2)
  else if List.isPrefixOf [0xEF, 0xBB, 0xBF] b then decodeUtf8 (b.drop 3)
  else
    match b with
    | b₀ :: b₁ :: b₂ :: b₃ :: _ =>
      if b₀ = 0 then if b₁ = 0 then decodeUtf32 true b else decodeUtf16 true b
      else if b₁ = 0 then if b₂ = 0 ∧ b₃ = 0 then decodeUtf32 false b else decodeUtf16 false b
      else decodeUtf8 b
    | [b₀, b₁] =>
      if b₀ = 0 then decodeUtf16 true b
      else if b₁ = 0 then decodeUtf16 false b
      else decodeUtf8 b
    | _ => decodeUtf8 b

/-! ### Round trip -/

theorem byte_val {n : Nat} (h : n < 256) : (byte n).val = n := Nat.mod_eq_of_lt h

/-- ASCII is one byte a character in either encoding. -/
theorem decodeLatin1_encodeUtf8 {t : Text} (h : ∀ c ∈ t, c.toNat < 128) :
    decodeLatin1 (encodeUtf8 t) = t := by
  induction t with
  | nil => rfl
  | cons c t ih =>
    have hc : c.toNat < 128 := h c List.mem_cons_self
    have hbytes : utf8Bytes c.toNat = [byte c.toNat] := if_pos hc
    have hchar : Char.ofNat (byte c.toNat).val = c := by
      rw [byte_val (by omega), Char.ofNat_toNat]
    rw [encodeUtf8, List.flatMap_cons, hbytes]
    exact congrArg₂ List.cons hchar (ih fun d hd => h d (List.mem_cons_of_mem c hd))

section

variable {need acc least n : Nat} (t : Bytes)

/-- The first byte of a character tells how long it is. -/
theorem utf8From_first (b : Fin 256) :
    utf8From 0 acc least (b :: t) =
      if b.val < 0x80 then (utf8From 0 0 0 t).map (chr b :: ·)
      else if b.val < 0xC0 then none
      else if b.val < 0xE0 then utf8From 1 (b - 0xC0) 0x80 t
      else if b.val < 0xF0 then utf8From 2 (b - 0xE0) 0x800 t
      else if b.val < 0xF8 then utf8From 3 (b - 0xF0) 0x10000 t
      else none := if_pos rfl

/-- A later one has six bits of it. -/
theorem utf8From_later (hneed : need ≠ 0) (b : Fin 256) :
    utf8From need acc least (b :: t) =
      if b.val < 0x80 ∨ 0xC0 ≤ b.val then none
      else if need = 1 then
        if least ≤ acc * 64 + (b - 0x80) ∧ acc * 64 + (b - 0x80) < 0x110000 then
          (utf8From 0 0 0 t).map (chr (acc * 64 + (b - 0x80)) :: ·)
        else none
      else utf8From (need - 1) (acc * 64 + (b - 0x80)) least t := if_neg hneed

theorem utf8From_ascii (h : n < 0x80) :
    utf8From 0 acc least (byte n :: t) = (utf8From 0 0 0 t).map (chr n :: ·) := by
  rw [utf8From_first, byte_val (by omega), if_pos h]

theorem utf8From_two (h : n < 0x20) :
    utf8From 0 acc least (byte (0xC0 + n) :: t) = utf8From 1 n 0x80 t := by
  rw [utf8From_first, byte_val (by omega), if_neg (by omega), if_neg (by omega),
    if_pos (by omega), Nat.add_sub_cancel_left]

theorem utf8From_three (h : n < 0x10) :
    utf8From 0 acc least (byte (0xE0 + n) :: t) = utf8From 2 n 0x800 t := by
  rw [utf8From_first, byte_val (by omega), if_neg (by omega), if_neg (by omega),
    if_neg (by omega), if_pos (by omega), Nat.add_sub_cancel_left]

theorem utf8From_four (h : n < 8) :
    utf8From 0 acc least (byte (0xF0 + n) :: t) = utf8From 3 n 0x10000 t := by
  rw [utf8From_first, byte_val (by omega), if_neg (by omega), if_neg (by omega),
    if_neg (by omega), if_neg (by omega), if_pos (by omega), Nat.add_sub_cancel_left]

theorem utf8From_tail (h : n < 64) (hneed : 1 < need) :
    utf8From need acc least (byte (0x80 + n) :: t) =
      utf8From (need - 1) (acc * 64 + n) least t := by
  rw [utf8From_later _ (by omega), byte_val (by omega), if_neg (by omega), if_neg (by omega),
    Nat.add_sub_cancel_left]

theorem utf8From_last (h : n < 64) (hleast : least ≤ acc * 64 + n)
    (hbound : acc * 64 + n < 0x110000) :
    utf8From 1 acc least (byte (0x80 + n) :: t) =
      (utf8From 0 0 0 t).map (chr (acc * 64 + n) :: ·) := by
  rw [utf8From_later _ (by decide), byte_val (by omega), if_neg (by omega), if_pos rfl,
    Nat.add_sub_cancel_left, if_pos ⟨hleast, hbound⟩]

end

theorem utf8From_utf8Bytes (c : Char) (t : Bytes) :
    utf8From 0 0 0 (utf8Bytes c.toNat ++ t) = (utf8From 0 0 0 t).map (c :: ·) := by
  have hbound : c.toNat < 0x110000 := by
    have hvalid : c.toNat < 0xD800 ∨ (0xDFFF < c.toNat ∧ c.toNat < 0x110000) := c.valid
    omega
  generalize hn : c.toNat = n at hbound
  have hchr : ∀ m, m = n → chr m = c := by
    rintro m rfl
    rw [← hn, chr_toNat]
  unfold utf8Bytes
  split
  · next hone =>
    rw [List.cons_append, List.nil_append, utf8From_ascii _ hone, hchr n rfl]
  · split
    · rw [List.cons_append, List.cons_append, List.nil_append, utf8From_two _ (by omega),
        utf8From_last _ (by omega) (by omega) (by omega), hchr _ (by omega)]
    · split
      · rw [List.cons_append, List.cons_append, List.cons_append, List.nil_append,
          utf8From_three _ (by omega), utf8From_tail _ (by omega) (by decide),
          utf8From_last _ (by omega) (by omega) (by omega), hchr _ (by omega)]
      · rw [List.cons_append, List.cons_append, List.cons_append, List.cons_append,
          List.nil_append, utf8From_four _ (by omega), utf8From_tail _ (by omega) (by decide),
          utf8From_tail _ (by omega) (by decide),
          utf8From_last _ (by omega) (by omega) (by omega), hchr _ (by omega)]

/-- **Text is read back.** -/
theorem decodeUtf8_encodeUtf8 (t : Text) : decodeUtf8 (encodeUtf8 t) = some t := by
  rw [decodeUtf8, encodeUtf8]
  induction t with
  | nil => rfl
  | cons c t ih => rw [List.flatMap_cons, utf8From_utf8Bytes, ih, Option.map_some]

/-- Bytes that begin with two ASCII characters are UTF-8. -/
theorem decodeJson_eq {m n : Nat} (hm : m < 0x80) (hm' : m ≠ 0) (hn : n < 0x80) (hn' : n ≠ 0)
    (b : Bytes) : decodeJson (byte m :: byte n :: b) = decodeUtf8 (byte m :: byte n :: b) := by
  have hfirst : ∀ k : Fin 256, k = 0 ∨ 0x80 ≤ k.val → ∀ ks,
      ¬ List.isPrefixOf (k :: ks) (byte m :: byte n :: b) = true := by
    intro k hk ks h
    rw [List.isPrefixOf_cons_cons, Bool.and_eq_true, beq_iff_eq] at h
    obtain ⟨rfl, -⟩ := h
    rw [byte_val (by omega), Fin.ext_iff, byte_val (by omega)] at hk
    exact hk.elim hm' fun h => by omega
  have hzero : ∀ {k}, k < 0x80 → k ≠ 0 → byte k ≠ 0 := by
    intro k hlt hne h
    rw [Fin.ext_iff, byte_val (by omega)] at h
    exact hne h
  unfold decodeJson
  rw [if_neg (hfirst _ (.inl rfl) _), if_neg (hfirst _ (.inr (by decide)) _),
    if_neg (hfirst _ (.inr (by decide)) _), if_neg (hfirst _ (.inr (by decide)) _),
    if_neg (hfirst _ (.inr (by decide)) _)]
  match b with
  | [] | _ :: _ :: _ =>
    dsimp only
    rw [if_neg (hzero hm hm'), if_neg (hzero hn hn')]
  | [_] => rfl

/-- **JSON text is read back** if it begins with two ASCII characters. -/
theorem decodeJson_encodeUtf8 {c d : Char} (hc : c.toNat < 0x80) (hc' : c.toNat ≠ 0)
    (hd : d.toNat < 0x80) (hd' : d.toNat ≠ 0) (t : Text) :
    decodeJson (encodeUtf8 (c :: d :: t)) = some (c :: d :: t) := by
  rw [← decodeUtf8_encodeUtf8 (c :: d :: t), encodeUtf8, List.flatMap_cons, List.flatMap_cons,
    utf8Bytes, utf8Bytes, if_pos hc, if_pos hd]
  exact decodeJson_eq hc hc' hd hd' _

end Systems

end RealEstate
