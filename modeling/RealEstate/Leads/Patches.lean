import RealEstate.Core.Exceptions
import RealEstate.Leads.Dedupe
import RealEstate.Systems.JsonText
import RealEstate.Users.Models

/-!
# Patches of leads and contacts (`modules/leads/service.py`)

A patch is applied attribute by attribute and flushed as one `UPDATE`. What protects a column is
the schema, a check of the service, or the constraint itself, which ends the request with a 500.

- `Violation`: how the database, or the schema of the response, rejects a row.
- `updateLead`, `updateContact`: the two requests.
- `clean_updateLead`, `clean_updateContact`: the exact conditions under which a request returns,
  or raises an `AppError`.
-/

namespace RealEstate

namespace Leads

namespace Patches

open RealEstate.Core Systems Users Dedupe

/-! ### Columns -/

/-- An error that nothing maps to an `AppError`. -/
inductive Violation where
  | notNull (column : String)
  | foreignKey (column : String)
  /-- `value too long for type character varying`. -/
  | tooLong (column : String)
  /-- `numeric field overflow`. -/
  | outOfRange (column : String)
  /-- A NUL character, which no text of the database holds. -/
  | invalidText (column : String)
  /-- A NUL character, a lone surrogate, `NaN` or an infinity, which no `jsonb` holds. -/
  | invalidJson (column : String)
  /-- The response schema rejects the row, or cannot encode it. -/
  | response (field : String)
  deriving DecidableEq, Repr

/-- An error of the service, or a constraint of the database. -/
inductive Rejected where
  | raised (error : AppError)
  | violation (violation : Violation)

/-- The request returned, or raised an `AppError`. -/
def Clean {α : Type} : Except Rejected α → Prop
  | .ok _ | .error (.raised _) => True
  | .error (.violation _) => False

/-- An error of the service. -/
def raise {α : Type} (kind : ErrorKind) (detail : String) : Except Rejected α :=
  .error (.raised ⟨kind, detail⟩)

/-- A condition of a column. -/
def constrain (violation : Violation) (holds : Bool) : Except Rejected Unit :=
  if holds then .ok () else .error (.violation violation)

/-- A text that the database stores. -/
def storableText (s : String) : Bool := s.toList.all (· ≠ '\x00')

/-- The code points of a Python string. Those from `0xD800` up to `0xDFFF` are surrogates, which
`json.loads` keeps when an escape names one alone. -/
abbrev PyStr := List (Fin 0x110000)

/-- A high surrogate. -/
def isHigh (c : Fin 0x110000) : Bool := 0xD800 ≤ c.val && c.val < 0xDC00

/-- A low surrogate. -/
def isLow (c : Fin 0x110000) : Bool := 0xDC00 ≤ c.val && c.val < 0xE000

/-- A value that `json.loads` returns under `Any`, which checks nothing of it. -/
inductive PyJson where
  | null
  | bool (b : Bool)
  | int (n : Int)
  | float (x : JsonFloat)
  | str (s : PyStr)
  | arr (xs : List PyJson)
  | obj (fields : List (PyStr × PyJson))

/-- A `dict[str, Any]`: the schema does check its own keys, which hold no surrogate. -/
abbrev Consent := List (Text × PyJson)

/-- A text that `jsonb` stores: no NUL character, and surrogates in pairs only, which `json.dumps`
writes as the two escapes of one character. -/
def storableStr : PyStr → Bool
  | [] => true
  | [c] => c.val ≠ 0 && !isHigh c && !isLow c
  | c :: d :: s =>
    if isHigh c then isLow d && storableStr s
    else c.val ≠ 0 && !isLow c && storableStr (d :: s)

mutual

/-- A value that a `jsonb` column stores. -/
def storableJson : PyJson → Bool
  | .null | .bool _ | .int _ | .float (.decimal _ _ _) => true
  | .float _ => false
  | .str s => storableStr s
  | .arr xs => storableItems xs
  | .obj fields => storableFields fields

/-- Item by item. -/
def storableItems : List PyJson → Bool
  | [] => true
  | x :: xs => storableJson x && storableItems xs

/-- Key by key. -/
def storableFields : List (PyStr × PyJson) → Bool
  | [] => true
  | (key, x) :: fields => storableStr key && storableJson x && storableFields fields

end

/-- A `consent` that its column stores. -/
def storableConsent (consent : Consent) : Bool :=
  consent.all fun field => field.1.all (· ≠ '\x00') && storableJson field.2

/-- A text that the response encodes: UTF-8 has no surrogates, not even in pairs. -/
def encodableStr (s : PyStr) : Bool := s.all fun c => !isHigh c && !isLow c

mutual

/-- A value that the response encodes, with so many levels left for containers. -/
def encodableJson : PyJson → Nat → Bool
  | .null, _ | .bool _, _ | .int _, _ | .float _, _ => true
  | .str s, _ => encodableStr s
  | .arr _, 0 | .obj _, 0 => false
  | .arr xs, depth + 1 => encodableItems xs depth
  | .obj fields, depth + 1 => encodableFields fields depth

/-- Item by item. -/
def encodableItems : List PyJson → Nat → Bool
  | [], _ => true
  | x :: xs, depth => encodableJson x depth && encodableItems xs depth

/-- Key by key. -/
def encodableFields : List (PyStr × PyJson) → Nat → Bool
  | [], _ => true
  | (key, x) :: fields, depth =>
    encodableStr key && encodableJson x depth && encodableFields fields depth

end

/-- A `consent` that the response encodes. -/
def encodableConsent (depth : Nat) (consent : Consent) : Bool :=
  consent.all fun field => encodableJson field.2 depth

/-- A set column of `VARCHAR(limit)`, or of `TEXT`. -/
def flushText (column : String) (limit : Option Nat) (value : Option (Option String)) :
    Except Rejected Unit := do
  constrain (.tooLong column) (value.join.all fun s => limit.all (s.length ≤ ·))
  constrain (.invalidText column) (value.join.all storableText)

/-- A set column with a foreign key. -/
def flushReference (column : String) (exists_ : Uuid → Bool) (value : Option (Option Uuid)) :
    Except Rejected Unit :=
  constrain (.foreignKey column) (value.join.all exists_)

/-! ### Rows -/

/-- What of a user is checked. -/
structure User where
  tenantId : Uuid
  active : Bool

/-- A lead with what a patch sets. -/
structure AssignedLead extends Lead where
  agentId : Option Uuid := none
  listingId : Option Uuid := none

/-- A row of `contacts`. -/
structure ContactRow where
  tenantId : Uuid
  firstName : Option String := none
  lastName : Option String := none
  email : Option String := none
  phone : Option String := none
  whatsapp : Option String := none
  consent : Consent := []
  tags : List String := []
  notes : Option String := none

/-- The rows that a patch refers to. -/
structure Database where
  users : Uuid → Option User
  /-- The tenant of a listing. -/
  listings : Uuid → Option Uuid
  leads : Uuid → Option AssignedLead
  contacts : Uuid → Option ContactRow

/-- `UserService.get_identity_if_active`. -/
def Database.activeUser (db : Database) (tenantId userId : Uuid) : Bool :=
  (db.users userId).any fun user => user.tenantId = tenantId ∧ user.active

/-! ### Leads -/

/-- `LeadUpdate`: an absent field is `none`, and a null one `some none`. -/
structure LeadUpdate where
  agentId : Option (Option Uuid) := none
  listingId : Option (Option Uuid) := none

/-- `MANAGES_ALL_ROLES`. -/
def managesAll (role : Role) : Bool := role = .admin ∨ role = .teamLead ∨ role = .marketing

section

variable (db : Database) (tenantId : Uuid) (scope : Option (List Uuid)) (role : Role)

/-- `_get_scoped_lead_or_404`. -/
def getScopedLeadOr404 (leadId : Uuid) : Except Rejected AssignedLead :=
  match (db.leads leadId).filter fun lead =>
    lead.tenantId = tenantId ∧ scope.all (fun ids => lead.agentId.any (· ∈ ids)) with
  | some lead => .ok lead
  | none => raise .notFound "Lead not found."

/-- The check of `agent_id`. -/
def checkAgent (agentId : Option (Option Uuid)) : Except Rejected Unit := do
  if agentId.isSome then
    if !managesAll role then raise .permissionDenied "Only managers can reassign a lead."
    else if agentId.join.any fun id => !db.activeUser tenantId id then
      raise .conflict "The assigned agent does not exist or is not active."

/-- The `UPDATE` of a lead. A foreign key knows no tenant. -/
def LeadUpdate.flush (data : LeadUpdate) : Except Rejected Unit := do
  flushReference "agent_id" (fun id => (db.users id).isSome) data.agentId
  flushReference "listing_id" (fun id => (db.listings id).isSome) data.listingId

/-- `LeadsService.update`. -/
def updateLead (leadId : Uuid) (data : LeadUpdate) : Except Rejected AssignedLead := do
  let lead ← getScopedLeadOr404 db tenantId scope leadId
  checkAgent db tenantId role data.agentId
  data.flush db
  return { lead with
    agentId := data.agentId.getD lead.agentId
    listingId := data.listingId.getD lead.listingId }

end

/-! ### Contacts -/

/-- `ContactUpdate`, as it is sent. -/
structure ContactUpdate where
  firstName : Option (Option String) := none
  lastName : Option (Option String) := none
  email : Option (Option String) := none
  phone : Option (Option String) := none
  whatsapp : Option (Option String) := none
  consent : Option (Option Consent) := none
  tags : Option (Option (List String)) := none
  notes : Option (Option String) := none

/-- A text of at most so many characters, if it is set. -/
def AtMost (limit : Nat) (value : Option (Option String)) : Prop :=
  ∀ s ∈ value.join, s.length ≤ limit

/-- What the schema admits. -/
structure ContactUpdate.Admitted (data : ContactUpdate) : Prop where
  firstName : AtMost 80 data.firstName
  lastName : AtMost 80 data.lastName
  email : AtMost 320 data.email
  phone : AtMost 32 data.phone
  whatsapp : AtMost 32 data.whatsapp

section

variable (lower : String → String) (depth : Nat) (db : Database) (tenantId : Uuid)

/-- The validators, which run after the limits. -/
def ContactUpdate.normalize (data : ContactUpdate) : ContactUpdate :=
  { data with
    email := data.email.map (normalizeEmail lower)
    phone := data.phone.map normalizePhone
    whatsapp := data.whatsapp.map normalizePhone }

/-- The `UPDATE` of a contact. A null `consent` or `tags` is stored as the JSON `null`. -/
def ContactUpdate.flush (data : ContactUpdate) : Except Rejected Unit := do
  flushText "first_name" (some 80) data.firstName
  flushText "last_name" (some 80) data.lastName
  flushText "email" (some 320) data.email
  flushText "phone" (some 32) data.phone
  flushText "whatsapp" (some 32) data.whatsapp
  constrain (.invalidJson "consent") (data.consent.join.all storableConsent)
  constrain (.invalidJson "tags") (data.tags.join.all (·.all storableText))
  flushText "notes" none data.notes

/-- The response of the route: `ContactOut.model_validate` of a contact whose `consent` and `tags`
are these, encoded to at most `depth` levels below a key of `consent`. -/
def contactOut (contact : ContactRow) (consent : Option Consent) (tags : Option (List String)) :
    Except Rejected ContactRow :=
  match consent, tags with
  | none, _ => .error (.violation (.response "consent"))
  | some _, none => .error (.violation (.response "tags"))
  | some consent, some tags => do
    constrain (.response "consent") (encodableConsent depth consent)
    return { contact with consent, tags }

/-- `LeadsService.update_contact`, with the response of its route. -/
def updateContact (contactId : Uuid) (data : ContactUpdate) : Except Rejected ContactRow := do
  let data := data.normalize lower
  match (db.contacts contactId).filter (·.tenantId = tenantId) with
  | none => raise .notFound "Contact not found."
  | some contact =>
    data.flush
    contactOut depth
      { contact with
        firstName := data.firstName.getD contact.firstName
        lastName := data.lastName.getD contact.lastName
        email := data.email.getD contact.email
        phone := data.phone.getD contact.phone
        whatsapp := data.whatsapp.getD contact.whatsapp
        notes := data.notes.getD contact.notes }
      (data.consent.getD (some contact.consent)) (data.tags.getD (some contact.tags))

end

/-! ### Clean requests -/

section

variable {α : Type}

/-- A constraint holds, or the request ends with a 500. -/
theorem clean_constrain {violation : Violation} {holds : Bool} {rest : Except Rejected α} :
    Clean (constrain violation holds >>= fun _ => rest) ↔ holds = true ∧ Clean rest := by
  cases holds with
  | true => exact ⟨fun h => ⟨rfl, h⟩, And.right⟩
  | false => exact iff_of_false id fun h => Bool.false_ne_true h.1

/-- A text fits its column and has no NUL. -/
theorem clean_flushText {column : String} {limit : Option Nat} {value : Option (Option String)}
    {rest : Except Rejected α} :
    Clean (flushText column limit value >>= fun _ => rest) ↔
      (∀ s ∈ value.join, ∀ n ∈ limit, s.length ≤ n) ∧ (∀ s ∈ value.join, storableText s) ∧
        Clean rest := by
  rw [flushText, bind_assoc, clean_constrain, clean_constrain]
  simp [Option.all_eq_true]

/-- A reference is to a row. -/
theorem clean_flushReference {column : String} {found : Uuid → Bool}
    {value : Option (Option Uuid)} {rest : Except Rejected α} :
    Clean (flushReference column found value >>= fun _ => rest) ↔
      (∀ id ∈ value.join, found id) ∧ Clean rest := by
  rw [flushReference, clean_constrain]
  simp [Option.all_eq_true]

end

section

variable {db : Database} {tenantId : Uuid} {scope : Option (List Uuid)} {role : Role}

/-- The actor sees the lead. -/
def LeadVisible (db : Database) (tenantId : Uuid) (scope : Option (List Uuid)) (leadId : Uuid) :
    Prop :=
  ∃ lead, db.leads leadId = some lead ∧ lead.tenantId = tenantId ∧
    scope.all (fun ids => lead.agentId.any (· ∈ ids)) = true

/-- The actor may assign the lead, and to that agent. -/
def Assignable (db : Database) (tenantId : Uuid) (role : Role) (agentId : Option (Option Uuid)) :
    Prop :=
  agentId.isSome → managesAll role ∧ ∀ id ∈ agentId.join, db.activeUser tenantId id

/-- An active user is a user. -/
theorem exists_of_activeUser {userId : Uuid} (h : db.activeUser tenantId userId = true) :
    (db.users userId).isSome := by
  unfold Database.activeUser at h
  cases hdb : db.users userId with
  | none => rw [hdb] at h; cases h
  | some user => rfl

/-- A lead is found, or answered with a 404. -/
theorem getScopedLead_cases (leadId : Uuid) :
    (LeadVisible db tenantId scope leadId ∧
      ∃ lead, getScopedLeadOr404 db tenantId scope leadId = .ok lead) ∨
    (¬LeadVisible db tenantId scope leadId ∧
      getScopedLeadOr404 db tenantId scope leadId = raise .notFound "Lead not found.") := by
  unfold getScopedLeadOr404
  cases hfilter : (db.leads leadId).filter _ with
  | some lead =>
    obtain ⟨hlead, hseen⟩ := Option.filter_eq_some_iff.1 hfilter
    obtain ⟨htenant, hscope⟩ := of_decide_eq_true hseen
    exact .inl ⟨⟨lead, hlead, htenant, hscope⟩, lead, rfl⟩
  | none =>
    refine .inr ⟨?_, rfl⟩
    rintro ⟨lead, hlead, htenant, hscope⟩
    rw [hlead, Option.filter_some, if_pos (decide_eq_true ⟨htenant, hscope⟩)] at hfilter
    cases hfilter

/-- An agent may be assigned, or the request is refused. -/
theorem checkAgent_cases (agentId : Option (Option Uuid)) :
    (Assignable db tenantId role agentId ∧ checkAgent db tenantId role agentId = .ok ()) ∨
    (¬Assignable db tenantId role agentId ∧
      ∃ e, checkAgent db tenantId role agentId = .error (.raised e)) := by
  unfold checkAgent
  cases agentId with
  | none => exact .inl ⟨fun h => (nomatch h), rfl⟩
  | some agentId =>
    simp only [Option.isSome_some, if_true]
    by_cases hrole : managesAll role = true
    · rw [if_neg (by rw [hrole]; decide)]
      by_cases hactive : ∀ id ∈ agentId, db.activeUser tenantId id = true
      · have hnone : ¬(Option.any (fun id => !db.activeUser tenantId id) agentId = true) := by
          cases agentId with
          | none => exact nofun
          | some id => simp [hactive id rfl]
        exact .inl ⟨fun _ => ⟨hrole, hactive⟩, if_neg hnone⟩
      · have hsome : Option.any (fun id => !db.activeUser tenantId id) agentId = true := by
          cases agentId with
          | none => exact absurd nofun hactive
          | some id => simpa using hactive
        exact .inr ⟨fun h => hactive (h rfl).2, _, if_pos hsome⟩
    · rw [if_pos (by simp [hrole])]
      exact .inr ⟨fun h => hrole (h rfl).1, _, rfl⟩

/-- **A patch of a lead is clean unless it links a listing that exists nowhere.** -/
theorem clean_updateLead (leadId : Uuid) (data : LeadUpdate) :
    Clean (updateLead db tenantId scope role leadId data) ↔
      (LeadVisible db tenantId scope leadId → Assignable db tenantId role data.agentId →
        ∀ id ∈ data.listingId.join, (db.listings id).isSome) := by
  unfold updateLead
  rcases @getScopedLead_cases db tenantId scope leadId with
    -- A lead that is not in scope is a 404 before anything else.
    ⟨hvisible, lead, hlead⟩ | ⟨hvisible, hlead⟩
  · rcases @checkAgent_cases db tenantId role data.agentId with
      ⟨hassign, hcheck⟩ | ⟨hassign, e, hcheck⟩
    · rw [hlead, hcheck]
      show Clean (data.flush db >>= fun _ => _) ↔ _
      -- The scope was checked, so only the references of the flush are left.
      rw [LeadUpdate.flush, bind_assoc, clean_flushReference, clean_flushReference]
      constructor
      · intro h _ _
        exact h.2.1
      · intro h
        refine ⟨fun id hid => ?_, h hvisible hassign, trivial⟩
        refine exists_of_activeUser ((hassign ?_).2 id hid)
        cases hagent : data.agentId with
        | none => rw [hagent] at hid; cases hid
        | some agentId => rfl
    · rw [hlead, hcheck]
      -- An agent that may not be assigned is refused in words of its own.
      exact iff_of_true trivial fun _ h => absurd h hassign
  · rw [hlead]
    exact iff_of_true trivial fun h => absurd h hvisible

/-- What the row of a contact stores of a patch, once it is normalized, and what is returned of the
row: no NUL character in a text or a JSON value, no number that is not finite, no surrogate, no
`consent` nested deeper than the response, no address grown past its column, and neither `consent`
nor `tags` null. -/
structure ContactStorable (depth : Nat) (contact : ContactRow) (data : ContactUpdate) : Prop where
  firstName : ∀ s ∈ data.firstName.join, storableText s
  lastName : ∀ s ∈ data.lastName.join, storableText s
  email : ∀ s ∈ data.email.join, storableText s
  email_length : ∀ s ∈ data.email.join, s.length ≤ 320
  phone : ∀ s ∈ data.phone.join, storableText s
  whatsapp : ∀ s ∈ data.whatsapp.join, storableText s
  notes : ∀ s ∈ data.notes.join, storableText s
  consent : data.consent ≠ some none ∧ ∀ consent ∈ data.consent.join, storableConsent consent
  encodable : ∀ consent ∈ data.consent.getD (some contact.consent), encodableConsent depth consent
  tags : data.tags ≠ some none ∧ ∀ tags ∈ data.tags.join, ∀ tag ∈ tags, storableText tag

/-- Nothing grows when a number is stripped. -/
theorem AtMost.normalizePhone {limit : Nat} {value : Option (Option String)}
    (h : AtMost limit value) : AtMost limit (value.map normalizePhone) := by
  have hstrip : ∀ t : Text, (strip t).length ≤ t.length := fun t => by
    rw [strip, List.length_reverse]
    refine (List.dropWhile_suffix _).length_le.trans ?_
    rw [List.length_reverse]
    exact (List.dropWhile_suffix _).length_le
  rintro s hs
  rcases value with - | - | t
  · cases hs
  · cases hs
  · simp only [Dedupe.normalizePhone, orNone, Option.map_some, Option.join_some, Option.mem_def,
      Option.filter_eq_some_iff, Option.map_eq_some_iff] at hs
    obtain ⟨⟨t', ⟨heq, -⟩, rfl⟩, -⟩ := hs
    cases heq
    rw [String.length_ofList]
    exact (hstrip _).trans (h t rfl)

/-- A text that the schema has measured fits its column. -/
theorem AtMost.limit {limit : Nat} {value : Option (Option String)} (h : AtMost limit value) :
    ∀ s ∈ value.join, ∀ n ∈ some limit, s.length ≤ n := by
  rintro s hs _ ⟨⟩
  exact h s hs

theorem clean_contactOut {depth : Nat} {contact : ContactRow} {consent : Option Consent}
    {tags : Option (List String)} :
    Clean (contactOut depth contact consent tags) ↔
      consent.isSome ∧ tags.isSome ∧ ∀ c ∈ consent, encodableConsent depth c := by
  cases consent with
  | none => exact iff_of_false id fun h => nomatch h.1
  | some consent =>
    cases tags with
    | none => exact iff_of_false id fun h => nomatch h.2.1
    | some tags =>
      show Clean (constrain _ _ >>= fun _ => _) ↔ _
      rw [clean_constrain]
      constructor
      · rintro ⟨hencodable, -⟩
        exact ⟨rfl, rfl, fun c hc => Option.some.inj hc ▸ hencodable⟩
      · rintro ⟨-, -, hencodable⟩
        exact ⟨hencodable consent rfl, trivial⟩

/-- A field is null neither in the row nor in the patch. -/
theorem isSome_getD {α : Type} {value : Option (Option α)} {a : α} :
    (value.getD (some a)).isSome ↔ value ≠ some none := by
  cases value with
  | none => exact iff_of_true rfl nofun
  | some value =>
    cases value with
    | none => exact iff_of_false nofun fun h => h rfl
    | some b => exact iff_of_true rfl nofun

/-- **A patch of a contact is clean if and only if it can be stored and returned.** -/
theorem clean_updateContact {lower : String → String} {depth : Nat} (contactId : Uuid)
    {data : ContactUpdate} (hadmitted : data.Admitted) :
    Clean (updateContact lower depth db tenantId contactId data) ↔
      ∀ contact, db.contacts contactId = some contact → contact.tenantId = tenantId →
        ContactStorable depth contact (data.normalize lower) := by
  unfold updateContact
  cases hfilter : (db.contacts contactId).filter _ with
  | none =>
    refine iff_of_true trivial ?_
    rintro contact hcontact htenant
    rw [hcontact, Option.filter_some, if_pos (decide_eq_true htenant)] at hfilter
    cases hfilter
  | some contact =>
    obtain ⟨hcontact, htenant⟩ := Option.filter_eq_some_iff.1 hfilter
    show Clean (((data.normalize lower).flush) >>= fun _ => _) ↔ _
    simp only [ContactUpdate.flush, bind_assoc, clean_flushText, clean_constrain,
      clean_contactOut, isSome_getD]
    constructor
    · rintro ⟨-, hfirst, -, hlast, hlength, hemail, -, hphone, -, hwhatsapp, hconsent, htags, -,
        hnotes, hconsent', htags', hencodable⟩ found hfound -
      obtain rfl : contact = found := Option.some.inj (hcontact.symm.trans hfound)
      refine ⟨hfirst, hlast, hemail, fun s hs => hlength s hs 320 rfl, hphone, hwhatsapp, hnotes,
        ⟨hconsent', ?_⟩, hencodable, htags', ?_⟩
      · simpa [Option.all_eq_true] using hconsent
      · simpa [Option.all_eq_true] using htags
    · -- The lengths are the schema's own bounds, so admission covers them.
      intro h
      have hs := h contact hcontact (of_decide_eq_true htenant)
      refine ⟨hadmitted.firstName.limit, hs.firstName, hadmitted.lastName.limit, hs.lastName,
        AtMost.limit hs.email_length, hs.email, hadmitted.phone.normalizePhone.limit, hs.phone,
        hadmitted.whatsapp.normalizePhone.limit, hs.whatsapp, ?_, ?_, by rintro _ _ _ ⟨⟩,
        hs.notes, hs.consent.1, hs.tags.1, hs.encodable⟩
      · simpa [Option.all_eq_true] using hs.consent.2
      · simpa [Option.all_eq_true] using hs.tags.2

end

end Patches

end Leads

end RealEstate
