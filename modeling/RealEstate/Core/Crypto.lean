import Mathlib.Data.List.Nodup
import RealEstate.Systems.Base64
import RealEstate.Systems.Machine
import RealEstate.Systems.Text
import RealEstate.Systems.Unicode

/-!
# Field encryption and its rotation (`core/crypto.py`)

A ciphertext is stored as `{key_id}:{payload}`; the retired keys are in the settings as one
text, `id=key,id=key`.

- `Aead`: what AES-GCM is relied on for.
- `FieldSettings`, `keyring`, `encrypt`, `decrypt`: `FieldCipher` over the settings.
- `rotations`: the machine of an operator who rotates keys and of values that are stored.
- `Separable`: the ids and keys that survive both text formats.
- `decrypt_stored`: with such, every stored value is read, whatever rotations came after it.
-/

namespace RealEstate

namespace Core

namespace Crypto

open Systems

/-- AES-GCM under keys of a type: it reads what was written under the same key, of the same
nonce, and nothing under another. -/
structure Aead (Key : Type) where
  encrypt : Key → Bytes → Bytes → Bytes
  decrypt : Key → Bytes → Bytes → Option Bytes
  decrypt_encrypt : ∀ key nonce data, decrypt key nonce (encrypt key nonce data) = some data
  decrypt_other : ∀ {key key'} nonce data, key' ≠ key →
    decrypt key' nonce (encrypt key nonce data) = none

/-- The settings of the field encryption. -/
structure FieldSettings where
  fieldEncryptionKey : Text
  fieldEncryptionKeyId : Text := "v1".toList
  fieldEncryptionKeys : Text := []
  min_length : 32 ≤ fieldEncryptionKey.length

/-- `os.urandom(12)`. -/
abbrev Nonce := { b : Bytes // b.length = 12 }

/-- How a ciphertext fails to be read. -/
inductive DecryptError where
  /-- `ValueError("Malformed ciphertext: missing key id prefix.")`. -/
  | malformed
  /-- `ValueError(f"Unknown field-encryption key id: {key_id!r}")`. -/
  | unknownKeyId (keyId : Text)
  | binasciiError
  /-- `ValueError("Nonce must be between 8 and 128 bytes")`, of `AESGCM`. -/
  | invalidNonce
  | invalidTag
  | unicodeDecodeError
  deriving DecidableEq

section

-- `_derive_key`, into the keys of `aead`.
variable {Key : Type} (aead : Aead Key) (deriveKey : Text → Key)

/-! ### The cipher -/

/-- An entry of `field_encryption_keys`. -/
def entryOf (entry : Text) : Option (Text × Text) :=
  let (keyId, _, keyValue) := partition '=' (strip entry)
  if keyId = [] ∨ keyValue = [] then none else some (keyId, keyValue)

/-- The entries of the setting, between commas. -/
def entriesOf (keys : Text) : List (Text × Text) := (keys.splitOn ',').filterMap entryOf

/-- `self._keyring`, the latest assignment first. -/
def keyring (settings : FieldSettings) : List (Text × Key) :=
  (((settings.fieldEncryptionKeyId, settings.fieldEncryptionKey) ::
    entriesOf settings.fieldEncryptionKeys).map fun pair => (pair.1, deriveKey pair.2)).reverse

/-- `f"{key_id}:{payload}"`. -/
def tokenOf (keyId : Text) (key : Key) (nonce : Nonce) (plaintext : Text) : Text :=
  keyId ++ ':' :: b64encode (nonce.val ++ aead.encrypt key nonce.val (encodeUtf8 plaintext))

/-- `FieldCipher.encrypt`. -/
def encrypt (settings : FieldSettings) (nonce : Nonce) (plaintext : Text) : Option Text :=
  ((keyring deriveKey settings).lookup settings.fieldEncryptionKeyId).map fun key =>
    tokenOf aead settings.fieldEncryptionKeyId key nonce plaintext

/-- `FieldCipher.decrypt`. -/
def decrypt (settings : FieldSettings) (token : Text) : Except DecryptError Text :=
  match partition ':' token with
  | (keyId, sep, payload) =>
    if sep = [] then .error .malformed
    else
      match (keyring deriveKey settings).lookup keyId, b64decode payload with
      | none, _ => .error (.unknownKeyId keyId)
      | some _, none => .error .binasciiError
      | some key, some raw =>
        if (raw.take 12).length < 8 then .error .invalidNonce
        else
          match aead.decrypt key (raw.take 12) (raw.drop 12) with
          | none => .error .invalidTag
          | some plaintext =>
            match decodeUtf8 plaintext with
            | none => .error .unicodeDecodeError
            | some plaintext => .ok plaintext

/-! ### Rotation -/

/-- The settings of the deployment and the keys that they had. -/
structure State where
  settings : FieldSettings
  /-- The ids and keys of the past, the oldest first. -/
  former : List (Text × Text)
  /-- The stored values, with their ciphertexts. -/
  stored : List (Text × Text)

/-- A rotation of the key, or a write with the current one. -/
inductive Label where
  | rotate (keyId key : Text)
  | store (nonce : Nonce) (plaintext : Text)

/-- The current id and key. -/
def FieldSettings.current (settings : FieldSettings) : Text × Text :=
  (settings.fieldEncryptionKeyId, settings.fieldEncryptionKey)

/-- All keys, the newest first. -/
def State.pairs (s : State) : List (Text × Text) := s.settings.current :: s.former

/-- `keys` with one more `id=key`. -/
def appendEntry (keys : Text) (pair : Text × Text) : Text :=
  if keys = [] then pair.1 ++ '=' :: pair.2 else keys ++ ',' :: (pair.1 ++ '=' :: pair.2)

/-- An id and a key that no pair has. -/
def State.fresh (s : State) (keyId key : Text) : Bool :=
  s.pairs.all fun pair => pair.1 != keyId && pair.2 != key

/-- One step. -/
def step (s : State) : Label → Option State
  | .rotate keyId key =>
    if h : 32 ≤ key.length ∧ s.fresh keyId key then
      some { s with
        settings :=
          { fieldEncryptionKey := key
            fieldEncryptionKeyId := keyId
            fieldEncryptionKeys := appendEntry s.settings.fieldEncryptionKeys s.settings.current
            min_length := h.1 }
        former := s.former ++ [s.settings.current] }
    else none
  | .store nonce plaintext =>
    (encrypt aead deriveKey s.settings nonce plaintext).map fun token =>
      { s with stored := (plaintext, token) :: s.stored }

/-- An operator's keys, from a first one, and the values stored meanwhile. -/
def rotations : Machine State Label where
  init s := s.settings.fieldEncryptionKeys = [] ∧ s.former = [] ∧ s.stored = []
  step := step aead deriveKey

/-! ### Separators -/

/-- The text `id=key` is read back as an entry of the list. -/
structure Retirable (pair : Text × Text) : Prop where
  ne_nil : pair.1 ≠ []
  comma : ',' ∉ pair.1 ∧ ',' ∉ pair.2
  equals : '=' ∉ pair.1
  head : pair.1.head?.any isSpace = false
  last : pair.2.getLast?.any isSpace = false

/-- Comparisons of characters. -/
instance (pair : Text × Text) : Decidable (Retirable pair) :=
  decidable_of_iff (pair.1 ≠ [] ∧ (',' ∉ pair.1 ∧ ',' ∉ pair.2) ∧ '=' ∉ pair.1 ∧
      pair.1.head?.any isSpace = false ∧ pair.2.getLast?.any isSpace = false)
    ⟨fun ⟨h, hcomma, hequals, hhead, hlast⟩ => ⟨h, hcomma, hequals, hhead, hlast⟩,
      fun ⟨h, hcomma, hequals, hhead, hlast⟩ => ⟨h, hcomma, hequals, hhead, hlast⟩⟩

/-- A pair is retired only if it is retirable, and encrypts only if its id has no colon. -/
def Separable (s : State) : Label → Prop
  | .rotate _ _ => Retirable s.settings.current
  | .store _ _ => ':' ∉ s.settings.fieldEncryptionKeyId

/-- By cases of the label. -/
instance (s : State) : (l : Label) → Decidable (Separable s l)
  | .rotate _ _ => inferInstanceAs (Decidable (Retirable s.settings.current))
  | .store _ _ => inferInstanceAs (Decidable (':' ∉ s.settings.fieldEncryptionKeyId))

end

/-! ### Round trips -/

section

variable {Key : Type} {aead : Aead Key} {deriveKey : Text → Key} {s : State}

/-- A retirable pair is read from its entry. -/
theorem entryOf_entry {pair : Text × Text} (h : Retirable pair) (hkey : pair.2 ≠ []) :
    entryOf (pair.1 ++ '=' :: pair.2) = some pair := by
  have hstrip : strip (pair.1 ++ '=' :: pair.2) = pair.1 ++ '=' :: pair.2 := by
    apply strip_of_ends
    · cases hid : pair.1 with
      | nil => exact absurd hid h.ne_nil
      | cons c t =>
        have hhead := h.head
        rw [hid] at hhead
        exact hhead
    · obtain ⟨t, c, ht⟩ := (List.eq_nil_or_concat pair.2).resolve_left hkey
      have hlast := h.last
      rw [ht, List.concat_eq_append] at hlast ⊢
      rw [← List.cons_append, ← List.append_assoc, List.getLast?_concat]
      rwa [List.getLast?_concat] at hlast
  rw [entryOf, hstrip, partition_append h.equals]
  exact if_neg (by simp [h.ne_nil, hkey])

/-- The entries of the list are those of before and the new one. -/
theorem entriesOf_appendEntry {keys : Text} {pair : Text × Text} (h : Retirable pair)
    (hkey : pair.2 ≠ []) : entriesOf (appendEntry keys pair) = entriesOf keys ++ [pair] := by
  have hcomma : ',' ∉ pair.1 ++ '=' :: pair.2 := by
    rw [List.mem_append, List.mem_cons]
    rintro (hmem | heq | hmem)
    · exact h.comma.1 hmem
    · exact absurd heq (by decide)
    · exact h.comma.2 hmem
  have hentry : entriesOf (pair.1 ++ '=' :: pair.2) = [pair] := by
    rw [entriesOf, List.splitOn_eq_singleton hcomma, List.filterMap_cons,
      entryOf_entry h hkey]
    rfl
  unfold appendEntry
  split
  · next hkeys =>
    rw [hkeys, hentry]
    rfl
  · rw [entriesOf, List.splitOn_append_cons_self, List.filterMap_append]
    exact congrArg (entriesOf keys ++ ·) hentry

/-- In a list of distinct keys, what is there is found. -/
theorem lookup_of_mem {α : Type} : ∀ {l : List (Text × α)} {key : Text} {a : α},
    (l.map Prod.fst).Nodup → (key, a) ∈ l → l.lookup key = some a
  | (key', a') :: l, key, a, hnodup, hmem => by
    rw [List.map_cons, List.nodup_cons] at hnodup
    rcases List.mem_cons.1 hmem with heq | htail
    · cases heq
      rw [List.lookup_cons_self]
    · have hne : key ≠ key' := by
        rintro rfl
        exact hnodup.1 (List.mem_map.2 ⟨_, htail, rfl⟩)
      rw [List.lookup_cons, beq_false_of_ne hne]
      exact lookup_of_mem hnodup.2 htail

/-- A token is read if its key is found. -/
theorem decrypt_tokenOf {settings : FieldSettings} {keyId : Text} {key : Key} {nonce : Nonce}
    {plaintext : Text} (hcolon : ':' ∉ keyId)
    (hkey : (keyring deriveKey settings).lookup keyId = some key) :
    decrypt aead deriveKey settings (tokenOf aead keyId key nonce plaintext) =
      .ok plaintext := by
  have htake : ∀ data, (nonce.val ++ data).take 12 = nonce.val := fun _ =>
    List.take_left' nonce.property
  have hdrop : ∀ data, (nonce.val ++ data).drop 12 = data := fun _ =>
    List.drop_left' nonce.property
  rw [decrypt, tokenOf, partition_append hcolon]
  have hnonce : ¬nonce.val.length < 8 := by
    rw [nonce.property]
    decide
  simp only [hkey, b64decode_b64encode, htake, hdrop, aead.decrypt_encrypt,
    decodeUtf8_encodeUtf8, if_neg hnonce]
  rfl

/-! ### Runs -/

/-- What a separable run keeps: the list holds the former pairs, no two pairs have an id in
common, and every stored token has the id of its key. -/
structure Inv (aead : Aead Key) (deriveKey : Text → Key) (s : State) : Prop where
  entries : entriesOf s.settings.fieldEncryptionKeys = s.former
  nodup : (s.pairs.map Prod.fst).Nodup
  tokens : ∀ plaintext token, (plaintext, token) ∈ s.stored → ∃ pair ∈ s.pairs, ∃ nonce,
    ':' ∉ pair.1 ∧ token = tokenOf aead pair.1 (deriveKey pair.2) nonce plaintext

/-- Every pair is found in the keyring. -/
theorem Inv.lookup (h : Inv aead deriveKey s) {pair : Text × Text} (hmem : pair ∈ s.pairs) :
    (keyring deriveKey s.settings).lookup pair.1 = some (deriveKey pair.2) := by
  have hring : keyring deriveKey s.settings =
      (s.pairs.map fun pair => (pair.1, deriveKey pair.2)).reverse := by
    rw [keyring, h.entries]
    rfl
  apply lookup_of_mem
  · rw [hring, List.map_reverse, List.map_map, List.nodup_reverse]
    exact h.nodup
  · rw [hring, List.mem_reverse]
    exact List.mem_map_of_mem hmem

/-- A value is always encrypted, under the current key. -/
theorem Inv.step_store (h : Inv aead deriveKey s) (nonce : Nonce) (plaintext : Text) :
    (rotations aead deriveKey).step s (.store nonce plaintext) = some { s with
      stored := (plaintext, tokenOf aead s.settings.current.1 (deriveKey s.settings.current.2)
        nonce plaintext) :: s.stored } := by
  have hlookup := h.lookup (List.mem_cons_self : s.settings.current ∈ s.pairs)
  show Option.map _ (encrypt aead deriveKey s.settings nonce plaintext) = _
  rw [encrypt]
  change Option.map _ (Option.map _ ((keyring deriveKey s.settings).lookup
    s.settings.current.1)) = _
  rw [hlookup]
  rfl

theorem rotations_inductive : (rotations aead deriveKey).Inductive Separable
    (Inv aead deriveKey) where
  init := by
    rintro s ⟨hkeys, hformer, hstored⟩
    refine ⟨?_, ?_, ?_⟩
    · rw [hkeys, hformer]
      rfl
    · rw [State.pairs, hformer]
      exact List.nodup_singleton _
    · intro plaintext token hmem
      rw [hstored] at hmem
      cases hmem
  step := by
    rintro s (⟨keyId, key⟩ | ⟨nonce, plaintext⟩) t hinv hsep hstep
    · -- A rotation: the replaced key goes to the former entries, and every pair is kept.
      change (if h : _ then _ else _) = _ at hstep
      split at hstep
      · next h =>
        cases hstep
        have hkey : s.settings.current.2 ≠ [] := by
          intro hnil
          -- The settings refuse an empty key, and this is what makes the entry readable.
          have hlength := s.settings.min_length
          rw [show s.settings.fieldEncryptionKey = [] from hnil] at hlength
          exact absurd hlength (by decide)
        refine ⟨?_, ?_, ?_⟩
        · show entriesOf (appendEntry _ _) = _
          rw [entriesOf_appendEntry hsep hkey, hinv.entries]
        · show ((keyId :: (s.former ++ [s.settings.current]).map Prod.fst)).Nodup
          have hperm : ((s.former ++ [s.settings.current]).map Prod.fst).Perm
              (s.pairs.map Prod.fst) :=
            (List.perm_append_singleton _ _).map _
          rw [List.nodup_cons, hperm.nodup_iff, hperm.mem_iff]
          refine ⟨fun hmem => ?_, hinv.nodup⟩
          obtain ⟨pair, hpair, heq⟩ := List.mem_map.1 hmem
          -- The guard of a rotation: the new id is among none of the ids in use.
          have hfresh := List.all_eq_true.1 h.2 pair hpair
          rw [Bool.and_eq_true, bne_iff_ne] at hfresh
          exact hfresh.1 heq
        · intro plaintext token hmem
          obtain ⟨pair, hpair, hrest⟩ := hinv.tokens plaintext token hmem
          refine ⟨pair, List.mem_cons_of_mem _ ?_, hrest⟩
          exact (List.perm_append_singleton _ _).mem_iff.2 hpair
      · cases hstep
    · -- A store encrypts with the current key, which is one of the pairs.
      rw [hinv.step_store] at hstep
      cases hstep
      refine ⟨hinv.entries, hinv.nodup, ?_⟩
      intro plaintext' token' hmem
      rcases List.mem_cons.1 hmem with heq | hmem
      · cases heq
        exact ⟨s.settings.current, List.mem_cons_self, nonce, hsep, rfl⟩
      · exact hinv.tokens plaintext' token' hmem

/-- **Stored values survive rotation.** In a run whose retired pairs are retirable, and whose
values are stored under ids without a colon, the current cipher reads every stored value. -/
theorem decrypt_stored (h : (rotations aead deriveKey).ReachVia Separable s)
    {plaintext token : Text} (hmem : (plaintext, token) ∈ s.stored) :
    decrypt aead deriveKey s.settings token = .ok plaintext := by
  have hinv := rotations_inductive.always h
  obtain ⟨pair, hpair, nonce, hcolon, rfl⟩ := hinv.tokens plaintext token hmem
  exact decrypt_tokenOf hcolon (hinv.lookup hpair)

end

/-! ### Fixed runs -/

/-- A cipher that puts its key, a byte, in front. -/
def prefixing : Aead (Fin 256) where
  encrypt key _ data := key :: data
  decrypt key _ := fun
    | [] => none
    | key' :: data => if key' = key then some data else none
  decrypt_encrypt _ _ _ := if_pos rfl
  decrypt_other _ _ h := if_neg h.symm

/-- Keys of different lengths are told apart. -/
def lengthKey (t : Text) : Fin 256 := byte t.length

/-- Twelve zeros. -/
def zeroNonce : Nonce := ⟨List.replicate 12 0, rfl⟩

/-- A key of 32 characters. -/
def firstKey : Text := List.replicate 32 'k'

/-- And one of 33. -/
def secondKey : Text := List.replicate 33 'k'

/-- A rotation retires the current key. -/
theorem step_rotate {Key : Type} {aead : Aead Key} {deriveKey : Text → Key} {s : State}
    {keyId key : Text} (h : 32 ≤ key.length ∧ s.fresh keyId key) :
    (rotations aead deriveKey).step s (.rotate keyId key) = some { s with
      settings :=
        { fieldEncryptionKey := key
          fieldEncryptionKeyId := keyId
          fieldEncryptionKeys := appendEntry s.settings.fieldEncryptionKeys s.settings.current
          min_length := h.1 }
      former := s.former ++ [s.settings.current] } :=
  dif_pos h

/-- Two values are stored, with a rotation in between. -/
theorem decrypt_stored_rotated : ∃ s, (rotations prefixing lengthKey).ReachVia Separable s ∧
    s.stored.map Prod.fst = ["b".toList, "a".toList] ∧
    ∀ plaintext token, (plaintext, token) ∈ s.stored →
      decrypt prefixing lengthKey s.settings token = .ok plaintext := by
  have hstart : (rotations prefixing lengthKey).ReachVia Separable
      ⟨{ fieldEncryptionKey := firstKey, min_length := by decide }, [], []⟩ :=
    .init ⟨rfl, rfl, rfl⟩
  have hfirst := hstart.step (l := .store zeroNonce "a".toList) (by decide)
    ((rotations_inductive.always hstart).step_store _ _)
  have hrotated := hfirst.step (l := .rotate "v2".toList secondKey) (by decide)
    (step_rotate ⟨by decide, by decide⟩)
  have hsecond := hrotated.step (l := .store zeroNonce "b".toList) (by decide)
    ((rotations_inductive.always hrotated).step_store _ _)
  exact ⟨_, hsecond, rfl, fun _ _ hmem => decrypt_stored hsecond hmem⟩

/-- A key with a comma. -/
def commaKey : FieldSettings where
  fieldEncryptionKey := firstKey ++ [',', 'x']
  min_length := by decide

/-- An id with a colon. -/
def colonId : FieldSettings where
  fieldEncryptionKey := firstKey
  fieldEncryptionKeyId := "tenant:1".toList
  min_length := by decide

/-- What was stored under a key with a comma is lost with the next rotation, and what is stored
under an id with a colon at once. -/
theorem stored_not_decrypted :
    (∃ s, (rotations prefixing lengthKey).Reachable s ∧ ∃ plaintext token,
      (plaintext, token) ∈ s.stored ∧
        decrypt prefixing lengthKey s.settings token = .error .invalidTag) ∧
    ∃ s, (rotations prefixing lengthKey).Reachable s ∧ ∃ plaintext token,
      (plaintext, token) ∈ s.stored ∧
        decrypt prefixing lengthKey s.settings token =
          .error (.unknownKeyId "tenant".toList) := by
  constructor
  · -- The key holds a comma, and the entry it becomes is split at it.
    obtain ⟨s, hs, hp⟩ := Machine.exists_reachable_of_run (M := rotations prefixing lengthKey)
      (s := { settings := commaKey, former := [], stored := [] })
      [.store zeroNonce "a".toList, .rotate "v2".toList secondKey]
      (fun s => s.stored.any fun value => decide
        (decrypt prefixing lengthKey s.settings value.2 = .error .invalidTag))
      ⟨rfl, rfl, rfl⟩ (by decide)
    obtain ⟨value, hmem, hvalue⟩ := List.any_eq_true.1 hp
    exact ⟨s, hs, value.1, value.2, hmem, of_decide_eq_true hvalue⟩
  · -- The id holds a colon, and the token is split at the first one.
    obtain ⟨s, hs, hp⟩ := Machine.exists_reachable_of_run (M := rotations prefixing lengthKey)
      (s := { settings := colonId, former := [], stored := [] })
      [.store zeroNonce "a".toList]
      (fun s => s.stored.any fun value => decide
        (decrypt prefixing lengthKey s.settings value.2 =
          .error (.unknownKeyId "tenant".toList)))
      ⟨rfl, rfl, rfl⟩ (by decide)
    obtain ⟨value, hmem, hvalue⟩ := List.any_eq_true.1 hp
    exact ⟨s, hs, value.1, value.2, hmem, of_decide_eq_true hvalue⟩

end Crypto

end Core

end RealEstate
