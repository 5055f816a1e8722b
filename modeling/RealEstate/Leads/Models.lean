import Mathlib.Data.List.Nodup
import RealEstate.Core.Base

/-!
# Contacts and leads (`modules/leads/models.py`)

A contact is a person of the agency's CRM and a lead one of the person's
enquiries: several leads may name one contact. Columns no modelled query or
service method reads are left out.
-/

namespace RealEstate

namespace Leads

open RealEstate.Core

/-- `LeadStage`. -/
inductive LeadStage where
  | new
  | contacted
  | qualified
  | touring
  | offer
  | won
  | lost
  deriving DecidableEq, Repr

/-- `Contact`. -/
structure Contact where
  id : Uuid
  tenantId : Uuid
  firstName : Option String := none
  lastName : Option String := none
  email : Option String := none
  phone : Option String := none
  whatsapp : Option String := none
  consent : JsonObject := []
  tags : List String := []
  notes : Option String := none

/-- `Lead`. -/
structure Lead where
  id : Uuid
  tenantId : Uuid
  contactId : Uuid
  stage : LeadStage
  updatedAt : DateTime

/-- `_anonymize_contact`. -/
def anonymizeContact (c : Contact) : Contact :=
  { c with
    firstName := none
    lastName := none
    email := none
    phone := none
    whatsapp := none
    notes := none
    consent := []
    tags := [] }

/-- The contact holds a name, an address, a number or notes. -/
def Contact.HoldsData (c : Contact) : Prop :=
  c.firstName ≠ none ∨ c.lastName ≠ none ∨ c.phone ≠ none ∨ c.whatsapp ≠ none ∨
    c.email ≠ none ∨ c.notes ≠ none

/-- An anonymized contact holds no data. -/
theorem not_holdsData_anonymizeContact (c : Contact) : ¬ (anonymizeContact c).HoldsData := by
  simp [anonymizeContact, Contact.HoldsData]

/-- The two tables; a contact's id is its primary key. -/
structure Crm where
  contacts : List Contact
  leads : List Lead
  contactIds : (contacts.map Contact.id).Nodup

/-- A change to some of the contacts that keeps their ids. -/
def Crm.mapContacts (db : Crm) (f : Contact → Contact) (hf : ∀ c, (f c).id = c.id) : Crm where
  contacts := db.contacts.map f
  leads := db.leads
  contactIds := by
    have hids : (db.contacts.map f).map Contact.id = db.contacts.map Contact.id := by
      rw [List.map_map]
      exact List.map_congr_left fun c _ => hf c
    rw [hids]
    exact db.contactIds

/-- The row under an id after such a change. -/
theorem Crm.mem_mapContacts (db : Crm) {f : Contact → Contact} (hf : ∀ c, (f c).id = c.id)
    {c r : Contact} (hc : c ∈ db.contacts) (hid : r.id = c.id) :
    r ∈ (db.mapContacts f hf).contacts ↔ r = f c := by
  constructor
  · intro h
    obtain ⟨c', hc', rfl⟩ := List.mem_map.1 h
    have hsame : c'.id = c.id := (hf c').symm.trans hid
    rw [List.inj_on_of_nodup_map db.contactIds hc' hc hsame]
  · rintro rfl
    exact List.mem_map.2 ⟨c, hc, rfl⟩

end Leads

end RealEstate
