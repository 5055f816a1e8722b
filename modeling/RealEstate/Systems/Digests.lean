import RealEstate.Systems.JsonText

/-!
# Digests in text

- `compareDigest`: `hmac.compare_digest` of two texts; it takes ASCII only.
- `HexDigest`: what is assumed of the hexadecimal digest of a message.
-/

namespace RealEstate

namespace Systems

/-- `str.isascii`. -/
def isAscii (t : Text) : Bool := t.all (·.toNat < 128)

/-- `hmac.compare_digest`, of two texts. -/
def compareDigest (s t : Text) : Except PyException Bool :=
  if isAscii s ∧ isAscii t then .ok (s = t) else .error .typeError

/-- The digits of `hexdigest`. -/
def hexDigits : Text := "0123456789abcdef".toList

/-- The kernel decodes a literal at each use, and its characters not. -/
theorem hexDigits_eq : hexDigits =
    ['0', '1', '2', '3', '4', '5', '6', '7', '8', '9', 'a', 'b', 'c', 'd', 'e', 'f'] :=
  String.toList_ofList

/-- A digest in hexadecimal, without collisions. -/
structure HexDigest (hexdigest : Bytes → Text) : Prop where
  hex : ∀ message, ∀ c ∈ hexdigest message, c ∈ hexDigits
  injective : Function.Injective hexdigest

section

variable {s t : Text}

theorem isAscii_of_hex (h : ∀ c ∈ t, c ∈ hexDigits) : isAscii t = true := by
  have hdigits : hexDigits.all (·.toNat < 128) = true := by
    rw [hexDigits_eq]
    decide
  exact List.all_eq_true.2 fun c hc => List.all_eq_true.1 hdigits c (h c hc)

/-- A comparison with ASCII raises on the other text only. -/
theorem compareDigest_of_ascii (ht : isAscii t = true) :
    compareDigest s t = if isAscii s then .ok (decide (s = t)) else .error .typeError := by
  simp only [compareDigest, ht, and_true]

end

/-! ### A digest without collisions

Two hexadecimal digits for each byte, except for messages whose digest is given. -/

/-- Two digits for each byte. -/
def hexOf (b : Bytes) : Text := b.flatMap fun n =>
  [hexDigits.getD (n.val / 16) '0', hexDigits.getD (n.val % 16) '0']

/-- Bytes are told apart by their digits. -/
theorem hexOf_injective : Function.Injective hexOf := by
  have hdigit : ∀ m < 16, ∀ n < 16, hexDigits.getD m '0' = hexDigits.getD n '0' → m = n := by
    rw [hexDigits_eq]
    decide
  intro b
  induction b with
  | nil =>
    intro c h
    cases c with
    | nil => rfl
    | cons n c => exact absurd h.symm (List.cons_ne_nil _ _)
  | cons m b ih =>
    intro c h
    cases c with
    | nil => exact absurd h (List.cons_ne_nil _ _)
    | cons n c =>
      obtain ⟨hhigh, hrest⟩ := List.cons.inj h
      obtain ⟨hlow, htail⟩ := List.cons.inj hrest
      have hhigh := hdigit _ (by omega) _ (by omega) hhigh
      have hlow := hdigit _ (Nat.mod_lt _ (by decide)) _ (Nat.mod_lt _ (by decide)) hlow
      rw [ih htail, Fin.ext (show m.val = n.val by omega)]

theorem length_hexOf (b : Bytes) : (hexOf b).length = 2 * b.length := by
  induction b with
  | nil => rfl
  | cons n b ih =>
    show (hexOf b).length + 1 + 1 = 2 * (b.length + 1)
    omega

theorem mem_hexDigits_of_mem_hexOf {b : Bytes} {c : Char} (h : c ∈ hexOf b) : c ∈ hexDigits := by
  have hdigit : ∀ m < 16, hexDigits.getD m '0' ∈ hexDigits := by
    rw [hexDigits_eq]
    decide
  obtain ⟨n, -, hc⟩ := List.mem_flatMap.1 h
  rcases List.mem_cons.1 hc with rfl | hc
  · exact hdigit _ (by omega)
  · rcases List.mem_singleton.1 hc with rfl
    exact hdigit _ (Nat.mod_lt _ (by decide))

/-- The given digests; for any other message, its bytes and one more digit. -/
def recordedDigest (known : List (Bytes × Text)) (message : Bytes) : Text :=
  (known.lookup message).getD (hexOf message ++ ['0'])

/-- A digest that is known at some inputs. -/
theorem hexDigest_recordedDigest {known : List (Bytes × Text)}
    (hhex : (known.all fun p => p.2.all (· ∈ hexDigits)) = true)
    (heven : ∀ p ∈ known, p.2.length % 2 = 0)
    (hdistinct : ∀ p ∈ known, ∀ q ∈ known, p.2 = q.2 → p.1 = q.1) :
    HexDigest (recordedDigest known) := by
  have hmem : ∀ {m d}, known.lookup m = some d → (m, d) ∈ known := by
    intro m d h
    obtain ⟨l, l', rfl, -⟩ := List.lookup_eq_some_iff.1 h
    exact List.mem_append_right _ List.mem_cons_self
  -- The made-up digests have an odd number of digits, the recorded ones an even one.
  have hodd : ∀ m : Bytes, (hexOf m ++ ['0']).length % 2 = 1 := by
    intro m
    rw [List.length_append, length_hexOf]
    show (2 * m.length + 1) % 2 = 1
    omega
  refine ⟨fun m c hc => ?_, fun m n h => ?_⟩
  · unfold recordedDigest at hc
    cases hm : known.lookup m with
    | some d =>
      rw [hm] at hc
      exact of_decide_eq_true (List.all_eq_true.1 (List.all_eq_true.1 hhex _ (hmem hm)) c hc)
    | none =>
      rw [hm] at hc
      rcases List.mem_append.1 hc with hc | hc
      · exact mem_hexDigits_of_mem_hexOf hc
      · rcases List.mem_singleton.1 hc with rfl
        decide
  · unfold recordedDigest at h
    cases hm : known.lookup m with
    | some d =>
      cases hn : known.lookup n with
      | some e =>
        rw [hm, hn] at h
        exact hdistinct _ (hmem hm) _ (hmem hn) h
      | none =>
        -- A recorded digest and a made-up one differ in their length.
        rw [hm, hn] at h
        have hlength := heven _ (hmem hm)
        rw [show d = hexOf n ++ ['0'] from h, hodd] at hlength
        cases hlength
    | none =>
      cases hn : known.lookup n with
      | some e =>
        rw [hm, hn] at h
        have hlength := heven _ (hmem hn)
        rw [← show hexOf m ++ ['0'] = e from h, hodd] at hlength
        cases hlength
      | none =>
        rw [hm, hn] at h
        exact hexOf_injective (List.append_cancel_right h)

end Systems

end RealEstate
