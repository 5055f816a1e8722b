import RealEstate.Systems.Digests

/-!
# Signed values (`core/security.py`)

A token `value.hmac` for links that outlive a Redis TTL. `purpose` separates the signatures of
one kind of link from those of another.

- `signValue`, `unsignValue`: the token of a value, and the value of a token.
- `signed_values`: what is signed is read back, nothing else is, and no purpose accepts the
  tokens of another. Unsigning raises for some tokens that nobody signed.
-/

namespace RealEstate

namespace Core

open Systems

/-! ### Purposes -/

/-- `_PREVIEW_PURPOSE` of `content/service.py`. -/
def previewPurpose : Text := "page-preview".toList

/-- `_TOKEN_PURPOSE` of `valuations/service.py`. -/
def tokenPurpose : Text := "valuation-request".toList

/-- `_UNSUBSCRIBE_PURPOSE` of `favorites/service.py`. -/
def unsubscribePurpose : Text := "saved-search-unsubscribe".toList

/-- `_ICAL_PURPOSE` of `appointments/service.py`. -/
def icalPurpose : Text := "agent-ical".toList

/-- The purposes that the services sign for. -/
def purposes : List Text := [previewPurpose, tokenPurpose, unsubscribePurpose, icalPurpose]

section

-- `hmac.new(key, message, sha256).hexdigest()`, and `settings.app_secret_key`.
variable (hexdigest : Bytes → Bytes → Text) (appSecretKey : Text)

/-- The signature of a value. -/
def signatureOf (purpose value : Text) : Text :=
  hexdigest (encodeUtf8 appSecretKey) (encodeUtf8 (purpose ++ ':' :: value))

/-- `sign_value`. -/
def signValue (purpose value : Text) : Text :=
  value ++ '.' :: signatureOf hexdigest appSecretKey purpose value

/-- `unsign_value`. -/
def unsignValue (purpose token : Text) : Except PyException (Option Text) := do
  let (value, sep, sig) := rpartition '.' token
  if sep = [] then return none
  let expected := signatureOf hexdigest appSecretKey purpose value
  return if ← compareDigest sig expected then some value else none

end

/-- What follows the last dot of a token is ASCII, if it has a dot. -/
def Comparable (token : Text) : Prop :=
  '.' ∈ token → isAscii (rpartition '.' token).2.2 = true

/-! ### One token -/

section

variable {hexdigest : Bytes → Bytes → Text} {appSecretKey purpose value sig token : Text}

/-- Texts are told apart by their bytes. -/
theorem encodeUtf8_injective : Function.Injective encodeUtf8 := by
  intro s t h
  have hread := decodeUtf8_encodeUtf8 s
  rw [h, decodeUtf8_encodeUtf8] at hread
  exact (Option.some.inj hread).symm

/-- A token without a dot is none. -/
theorem unsignValue_of_not_mem (h : '.' ∉ token) :
    unsignValue hexdigest appSecretKey purpose token = .ok none := by
  unfold unsignValue
  dsimp only
  rw [if_pos (rpartition_of_not_mem h)]
  rfl

variable (h : ∀ key, HexDigest (hexdigest key))
include h

theorem dot_not_mem_signatureOf : '.' ∉ signatureOf hexdigest appSecretKey purpose value :=
  fun hmem => absurd ((h _).hex _ _ hmem) (by decide)

theorem isAscii_signatureOf :
    isAscii (signatureOf hexdigest appSecretKey purpose value) = true :=
  isAscii_of_hex ((h _).hex _)

/-- What becomes of a token with a dot. -/
theorem unsignValue_append (hsig : '.' ∉ sig) :
    unsignValue hexdigest appSecretKey purpose (value ++ '.' :: sig) =
      if isAscii sig then
        .ok (if sig = signatureOf hexdigest appSecretKey purpose value then some value else none)
      else .error .typeError := by
  unfold unsignValue
  rw [rpartition_append hsig]
  dsimp only
  rw [if_neg (by decide), compareDigest_of_ascii (isAscii_signatureOf h)]
  by_cases hsame : isAscii sig = true
  · rw [if_pos hsame, if_pos hsame]
    show Except.ok (if decide (sig = _) = true then some value else none) = _
    simp only [decide_eq_true_eq]
  · rw [if_neg hsame, if_neg hsame]
    rfl

/-- **A signed value is read back for its own purpose, and for no other.** -/
theorem unsignValue_signValue (purpose' : Text) :
    unsignValue hexdigest appSecretKey purpose (signValue hexdigest appSecretKey purpose' value) =
      .ok (if purpose' = purpose then some value else none) := by
  rw [signValue, unsignValue_append h (dot_not_mem_signatureOf h),
    if_pos (isAscii_signatureOf h)]
  by_cases hp : purpose' = purpose
  · rw [if_pos hp, hp, if_pos rfl]
  · rw [if_neg hp, if_neg]
    intro hsame
    have hmessage := encodeUtf8_injective ((h _).injective hsame)
    exact hp (List.append_cancel_right hmessage)

/-- A token is unsigned, as it should be, if what follows its last dot can be compared. -/
theorem unsignValue_iff :
    (∃ result, unsignValue hexdigest appSecretKey purpose token = .ok result ∧
      ∀ value, result = some value ↔ token = signValue hexdigest appSecretKey purpose value) ↔
    Comparable token := by
  -- A token without a dot has no signature to compare.
  by_cases hdot : '.' ∈ token
  · obtain ⟨value, sig, rfl, hsig⟩ := exists_rpartition hdot
    have hcomparable : Comparable (value ++ '.' :: sig) ↔ isAscii sig = true := by
      unfold Comparable
      rw [rpartition_append hsig]
      exact ⟨fun h => h hdot, fun h _ => h⟩
    rw [hcomparable, unsignValue_append h hsig]
    by_cases hascii : isAscii sig = true
    · refine iff_of_true ⟨_, if_pos hascii, fun value' => ?_⟩ hascii
      constructor
      · -- What verifies is the value of its own signature.
        intro hresult
        by_cases hsame : sig = signatureOf hexdigest appSecretKey purpose value
        · rw [if_pos hsame] at hresult
          rw [← Option.some.inj hresult, signValue, ← hsame]
        · rw [if_neg hsame] at hresult
          cases hresult
      · -- The signature holds no dot, so a signed value splits where it was joined.
        intro htoken
        have hparts := congrArg (rpartition '.') htoken
        rw [signValue, rpartition_append hsig,
          rpartition_append (dot_not_mem_signatureOf h)] at hparts
        obtain ⟨rfl, hparts⟩ := Prod.mk.inj hparts
        exact if_pos (Prod.mk.inj hparts).2
    · -- `compare_digest` raises on a signature that is not ASCII.
      rw [if_neg hascii]
      exact iff_of_false (fun ⟨_, h, _⟩ => nomatch h) hascii
  · refine iff_of_true ⟨none, unsignValue_of_not_mem hdot, fun value => ?_⟩
      fun hmem => absurd hmem hdot
    refine iff_of_false (fun h => nomatch h) ?_
    rintro rfl
    exact hdot (List.mem_append_right _ List.mem_cons_self)

end

/-! ### All tokens -/

/-- **Signed values.** Without collisions of the HMAC, what is signed is read back; a token
gives the value it was signed from and any other token none, without an exception, exactly if
what follows its last dot is ASCII; and the tokens of a purpose give no value for another. -/
theorem signed_values {hexdigest : Bytes → Bytes → Text} (h : ∀ key, HexDigest (hexdigest key))
    (appSecretKey : Text) :
    (∀ purpose value, unsignValue hexdigest appSecretKey purpose
      (signValue hexdigest appSecretKey purpose value) = .ok (some value)) ∧
    (∀ purpose token,
      (∃ result, unsignValue hexdigest appSecretKey purpose token = .ok result ∧
        ∀ value, result = some value ↔ token = signValue hexdigest appSecretKey purpose value) ↔
      Comparable token) ∧
    (∀ purpose purpose' value, purpose ≠ purpose' →
      unsignValue hexdigest appSecretKey purpose'
        (signValue hexdigest appSecretKey purpose value) = .ok none) ∧
    purposes.Nodup := by
  refine ⟨fun purpose value => ?_, fun purpose token => unsignValue_iff h,
    fun purpose purpose' value hne => ?_, by decide⟩
  · rw [unsignValue_signValue h, if_pos rfl]
  · rw [unsignValue_signValue h, if_neg hne]

/-! ### Witnesses -/

/-- A secret of 32 characters. -/
def sampleSecret : Text := List.replicate 32 'k'

/-- The digests of `page-preview:a` and `agent-ical:a`. -/
def sampleDigests : List (Bytes × Text) :=
  [(encodeUtf8 "page-preview:a".toList,
      "ecebe0e90738ae737bc438c34fd8aa5e8a9536f3aaa5b39786828f45b8299680".toList),
    (encodeUtf8 "agent-ical:a".toList,
      "8a2e88f2fc22903f99094bf43018c4c01f1138f0135d06dbd74641b71128dbd7".toList)]

/-- The HMAC under that secret. -/
def sampleHmac (_key message : Bytes) : Text := recordedDigest sampleDigests message

theorem hexDigest_sampleHmac (key : Bytes) : HexDigest (sampleHmac key) := by
  show HexDigest (recordedDigest sampleDigests)
  unfold sampleDigests
  repeat rw [String.toList_ofList]
  refine hexDigest_recordedDigest ?_ (by decide) (by decide)
  rw [hexDigits_eq]
  decide

theorem signed_values_preview :
    unsignValue sampleHmac sampleSecret previewPurpose
      (signValue sampleHmac sampleSecret previewPurpose ['a']) =
        .ok (some ['a']) ∧
    (∃ result, unsignValue sampleHmac sampleSecret icalPurpose "a.0".toList =
      .ok result ∧ ∀ value, result = some value ↔
        "a.0".toList = signValue sampleHmac sampleSecret icalPurpose value) ∧
    unsignValue sampleHmac sampleSecret icalPurpose
      (signValue sampleHmac sampleSecret previewPurpose ['a']) = .ok none :=
  let ⟨hround, htoken, hother, _⟩ := signed_values hexDigest_sampleHmac sampleSecret
  ⟨hround _ _, (htoken _ _).2 fun _ => by decide, hother _ _ _ (by decide)⟩

/-- A link with a letter `é` after its last dot is answered by an error of the server. -/
theorem unsignValue_raises :
    ¬ ∀ token, ∃ result,
      unsignValue sampleHmac sampleSecret icalPurpose token = .ok result := by
  intro h
  obtain ⟨result, hresult⟩ := h "x.é".toList
  have hraise : unsignValue sampleHmac sampleSecret icalPurpose
      (['x'] ++ '.' :: ['é']) = .error .typeError := by
    rw [unsignValue_append hexDigest_sampleHmac (by decide), if_neg (by decide)]
  cases hraise.symm.trans hresult

end Core

end RealEstate
