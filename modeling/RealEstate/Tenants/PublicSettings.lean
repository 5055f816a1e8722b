import RealEstate.Systems.JsonText
import RealEstate.Systems.Redaction
import RealEstate.Tenants.SiteConfig

/-!
# What the public settings show (`modules/tenants/service.py`)

Private namespaces are dropped and the values of the others scrubbed; the keys at the top are not
looked at.

- `publicSettings`: the function, over JSON values with numbers of any kind.
- `publicSettings_fields`: what the site configuration serves is the same.
- `leaksNothing_iff`: when nothing leaks.
-/

namespace RealEstate

namespace Tenants

namespace PublicSettings

open RealEstate.Core Systems Document

/-- A JSON value that is neither a list nor an object. -/
inductive Scalar where
  | null
  | bool (b : Bool)
  | int (n : Int)
  | float (x : JsonFloat)
  | str (s : String)
  deriving DecidableEq

/-- A value of the settings. -/
abbrev Value := Document String Scalar

/-- `tenants.settings`. -/
abbrev Settings := List (String × Value)

/-- `_REDACTED`. -/
def redactedText : Scalar := .str "[redacted]"

/-- `_scrub_secrets`. -/
def scrubSecrets : Value → Value := redact namesSecret redactedText

/-- The fields outside the private namespaces. -/
def shown (raw : Settings) : Settings :=
  raw.filter fun field => field.1 ∉ privateSettingsNamespaces

/-- `TenantService.public_settings`. -/
def publicSettings (raw : Settings) : Settings :=
  (shown raw).map fun field => (field.1, scrubSecrets field.2)

/-- Public settings leak nothing. -/
structure LeaksNothing (raw : Settings) : Prop where
  dropped : ∀ field ∈ publicSettings raw, field.1 ∉ privateSettingsNamespaces
  redacted : CleanFields namesSecret redactedText (publicSettings raw)
  keys : (publicSettings raw).map Prod.fst =
    (raw.map Prod.fst).filter fun key => key ∉ privateSettingsNamespaces
  /-- Along a path through other keys there are the same leaves, and lists and objects of the same
  length and keys. -/
  unchanged : ∀ key ∉ privateSettingsNamespaces,
    ∀ path : List (Step String), (∀ step ∈ .key key :: path, step.Open namesSecret) →
      (at? (.object (publicSettings raw)) (.key key :: path)).map shape =
        (at? (.object raw) (.key key :: path)).map shape
  idempotent : publicSettings (publicSettings raw) = publicSettings raw
  same : ∀ other, AgreeFields namesSecret (shown raw) (shown other) →
    publicSettings other = publicSettings raw

/-- No key at the top that is shown names a secret. -/
def PlainAtTop (raw : Settings) : Prop :=
  ∀ field ∈ raw, field.1 ∉ privateSettingsNamespaces → namesSecret field.1 = false

/-! ### What is dropped -/

section

variable {raw : Settings}

theorem mem_shown {field : String × Value} :
    field ∈ shown raw ↔ field ∈ raw ∧ field.1 ∉ privateSettingsNamespaces := by
  unfold shown
  rw [List.mem_filter, decide_eq_true_eq]

theorem keys_publicSettings : (publicSettings raw).map Prod.fst = (shown raw).map Prod.fst := by
  unfold publicSettings
  rw [List.map_map]
  rfl

/-- Only the private namespaces are left out. -/
theorem keys_shown : (shown raw).map Prod.fst =
    (raw.map Prod.fst).filter fun key => key ∉ privateSettingsNamespaces := by
  unfold shown
  rw [List.filter_map]
  rfl

/-- No top-level key names a secret. -/
theorem plainAtTop_iff :
    PlainAtTop raw ↔ ∀ key ∈ (shown raw).map Prod.fst, namesSecret key = false := by
  simp only [PlainAtTop, List.forall_mem_map, mem_shown, and_imp]

/-- Without private namespaces everything is shown. -/
theorem shown_eq_self (h : ∀ field ∈ raw, field.1 ∉ privateSettingsNamespaces) :
    shown raw = raw :=
  List.filter_eq_self.2 fun field hfield => decide_eq_true (h field hfield)

theorem dropped_publicSettings :
    ∀ field ∈ publicSettings raw, field.1 ∉ privateSettingsNamespaces := by
  intro field hfield
  obtain ⟨old, hold, rfl⟩ := List.mem_map.1 hfield
  exact (mem_shown.1 hold).2

/-- What is public stays as it is. -/
theorem publicSettings_publicSettings :
    publicSettings (publicSettings raw) = publicSettings raw := by
  have hsame : shown (publicSettings raw) = publicSettings raw :=
    shown_eq_self dropped_publicSettings
  rw [publicSettings, hsame, publicSettings, List.map_map]
  refine List.map_congr_left fun field _ => ?_
  exact congrArg (Prod.mk field.1) (redact_redact field.2)

/-! ### What is scrubbed -/

/-- A public namespace is looked up as in the settings. -/
theorem lookup_shown {key : String} (h : key ∉ privateSettingsNamespaces) :
    (shown raw).lookup key = raw.lookup key := by
  unfold shown
  induction raw with
  | nil => rfl
  | cons field raw ih =>
    rw [List.filter_cons, List.lookup_cons]
    by_cases hkey : key = field.1
    · subst hkey
      rw [if_pos (decide_eq_true h), List.lookup_cons, beq_self_eq_true]
    · rw [← ih, beq_eq_false_iff_ne.2 hkey]
      by_cases hfield : field.1 ∈ privateSettingsNamespaces
      · rw [if_neg fun hshown => absurd hfield (of_decide_eq_true hshown)]
      · rw [if_pos (decide_eq_true hfield), List.lookup_cons, beq_eq_false_iff_ne.2 hkey]

/-- With nothing secret at the top, the settings are redacted as any object is. -/
theorem publicSettings_eq_redactFields (h : PlainAtTop raw) :
    publicSettings raw = redactFields namesSecret redactedText (shown raw) := by
  rw [redactFields_eq_map]
  refine List.map_congr_left fun field hfield => ?_
  obtain ⟨hmem, hshown⟩ := mem_shown.1 hfield
  simp only [h field hmem hshown, Bool.false_eq_true, if_false]
  rfl

/-- What no secret key stands over keeps its shape. -/
theorem unchanged_publicSettings {key : String} (hkey : key ∉ privateSettingsNamespaces)
    {path : List (Step String)} (hpath : ∀ step ∈ path, step.Open namesSecret) :
    (at? (.object (publicSettings raw)) (.key key :: path)).map shape =
      (at? (.object raw) (.key key :: path)).map shape := by
  have hlookup : (publicSettings raw).lookup key = (raw.lookup key).map scrubSecrets := by
    refine (lookup_map_fields (fun _ => scrubSecrets) (shown raw) key).trans ?_
    rw [lookup_shown hkey]
  show ((publicSettings raw).lookup key |>.bind (at? · path)).map shape =
    ((raw.lookup key).bind (at? · path)).map shape
  rw [hlookup]
  cases raw.lookup key with
  | none => rfl
  | some d =>
    show (at? (redact namesSecret redactedText d) path).map shape = (at? d path).map shape
    rw [at?_redact d hpath, Option.map_map]
    exact congrArg (fun f => Option.map f (at? d path)) (funext shape_redact)

/-! ### What shows -/

/-- The values under secret keys at the top are replaced. -/
def replaceSecrets (value : Value) (fields : Settings) : Settings :=
  fields.map fun field => (field.1, if namesSecret field.1 then value else field.2)

theorem agree_self (d : Value) : Agree namesSecret d d := by
  have hiff : redact namesSecret redactedText d = redact namesSecret redactedText d ↔
      Agree namesSecret d d := redact_eq_redact_iff d d
  exact hiff.1 rfl

theorem agree_replaceSecrets (value : Value) (fields : Settings) :
    AgreeFields namesSecret fields (replaceSecrets value fields) := by
  induction fields with
  | nil => trivial
  | cons field fields ih =>
    refine ⟨rfl, fun hkey => ?_, ih⟩
    simp only [hkey, Bool.false_eq_true, if_false]
    exact agree_self field.2

/-- Which namespaces are shown does not depend on the secrets. -/
theorem shown_replaceSecrets (value : Value) :
    shown (replaceSecrets value raw) = replaceSecrets value (shown raw) := by
  unfold shown replaceSecrets
  rw [List.filter_map]
  rfl

/-- Each namespace is redacted by itself. -/
theorem mem_publicSettings {field : String × Value} (hfield : field ∈ raw)
    (hshown : field.1 ∉ privateSettingsNamespaces) :
    (field.1, scrubSecrets field.2) ∈ publicSettings raw :=
  List.mem_map.2 ⟨field, mem_shown.2 ⟨hfield, hshown⟩, rfl⟩

/-- Under a secret key there is the mark. -/
theorem eq_mark_of_cleanFields {secret : String → Bool} {mark : Scalar} {fields : Settings}
    (h : CleanFields secret mark fields) {key : String} (hkey : secret key = true) {d : Value}
    (hd : (key, d) ∈ fields) : d = .leaf mark := by
  induction fields with
  | nil => cases hd
  | cons field fields ih =>
    obtain ⟨hfirst, hrest⟩ := h
    rcases List.mem_cons.1 hd with rfl | hd
    · simpa only [hkey, if_true] using hfirst
    · exact ih hrest hd

end

/-- **Public settings** leak nothing exactly if no key at the top names a secret, apart from those
of private namespaces: the scrubber sees the values under them, and never the keys. -/
theorem leaksNothing_iff (raw : Settings) : LeaksNothing raw ↔ PlainAtTop raw := by
  constructor
  · intro h field hfield hshown
    by_contra hsecret
    have hkey : namesSecret field.1 = true := Bool.eq_true_of_not_eq_false hsecret
    -- An empty list in the place of the secret would be shown as well.
    have hsame := h.same (replaceSecrets (.list []) raw) <| by
      rw [shown_replaceSecrets]
      exact agree_replaceSecrets _ _
    have hmem : (field.1, Document.list []) ∈ publicSettings raw := by
      have hreplaced : (field.1, Document.list []) ∈ replaceSecrets (.list []) raw :=
        List.mem_map.2 ⟨field, hfield, by simp only [hkey, if_true]⟩
      rw [← hsame]
      exact mem_publicSettings hreplaced hshown
    cases eq_mark_of_cleanFields h.redacted hkey hmem
  · intro h
    have hredact := publicSettings_eq_redactFields h
    exact {
      dropped := dropped_publicSettings
      redacted := by
        rw [hredact]
        exact clean_redactFields (shown raw)
      keys := keys_publicSettings.trans keys_shown
      unchanged := fun key hkey path hpath => unchanged_publicSettings hkey fun step hstep =>
        hpath step (List.mem_cons_of_mem _ hstep)
      idempotent := publicSettings_publicSettings
      same := fun other hagree => by
        have hother : PlainAtTop other := by
          rw [plainAtTop_iff, ← agreeFields_keys hagree]
          exact plainAtTop_iff.1 h
        rw [hredact, publicSettings_eq_redactFields hother]
        exact ((redactFields_eq_redactFields_iff _ _).2 hagree).symm }

/-- An API key at the top is published. -/
theorem api_key_published : ¬∀ raw : Settings, LeaksNothing raw := by
  intro h
  have hkey : namesSecret "api_key" = true := by decide
  have hshown : "api_key" ∉ privateSettingsNamespaces := by decide
  have hsame : (Document.leaf (.str "k-1") : Value) = .leaf redactedText :=
    eq_mark_of_cleanFields (h [("api_key", .leaf (.str "k-1"))]).redacted hkey
      (mem_publicSettings List.mem_cons_self hshown)
  exact absurd (Document.leaf.inj hsame) (by decide)

/-! ### The site configuration -/

mutual

/-- The JSON values of the other modules, whose numbers are integers. -/
def ofJson : Json → Value
  | .null => .leaf .null
  | .bool b => .leaf (.bool b)
  | .num n => .leaf (.int n)
  | .str s => .leaf (.str s)
  | .arr items => .list (ofItems items)
  | .obj fields => .object (ofFields fields)

/-- An array, item by item. -/
def ofItems : List Json → List Value
  | [] => []
  | item :: items => ofJson item :: ofItems items

/-- An object, field by field. -/
def ofFields : JsonObject → Settings
  | [] => []
  | (key, inner) :: fields => (key, ofJson inner) :: ofFields fields

end

mutual

/-- The code's redaction is that of documents. -/
theorem ofJson_scrubSecrets :
    ∀ value : Json, ofJson (Tenants.scrubSecrets value) = scrubSecrets (ofJson value)
  | .null | .bool _ | .num _ | .str _ => rfl
  | .arr items => congrArg Document.list (ofItems_scrubItems items)
  | .obj fields => congrArg Document.object (ofFields_scrubFields fields)

theorem ofItems_scrubItems : ∀ items : List Json,
    ofItems (scrubItems items) = redactItems namesSecret redactedText (ofItems items)
  | [] => rfl
  | item :: items =>
    congrArg₂ List.cons (ofJson_scrubSecrets item) (ofItems_scrubItems items)

theorem ofFields_scrubFields : ∀ fields : JsonObject,
    ofFields (scrubFields fields) = redactFields namesSecret redactedText (ofFields fields)
  | [] => rfl
  | (key, inner) :: fields => by
    rw [scrubFields, ofFields, ofFields, redactFields, ofFields_scrubFields fields]
    by_cases hkey : namesSecret key = true
    · rw [if_pos hkey, if_pos hkey]
      rfl
    · rw [if_neg hkey, if_neg hkey, ofJson_scrubSecrets inner]
      rfl

end

/-- What `GET /site/config` serves are these public settings. -/
theorem publicSettings_fields (raw : JsonObject) :
    ofFields (Tenants.publicSettings raw) = publicSettings (ofFields raw) := by
  unfold Tenants.publicSettings publicSettings shown
  induction raw with
  | nil => rfl
  | cons field raw ih =>
    obtain ⟨key, value⟩ := field
    rw [ofFields, List.filter_cons, List.filter_cons]
    by_cases hkey : key ∈ privateSettingsNamespaces
    · rw [if_neg fun hshown => absurd hkey (of_decide_eq_true hshown),
        if_neg fun hshown => absurd hkey (of_decide_eq_true hshown)]
      exact ih
    · rw [if_pos (decide_eq_true hkey), if_pos (decide_eq_true hkey), List.map_cons, List.map_cons,
        ofFields, ih, ofJson_scrubSecrets]

end PublicSettings

end Tenants

end RealEstate
