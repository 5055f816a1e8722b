import Mathlib.Order.Basic
import RealEstate.Leads.Models
import RealEstate.Systems.Paging

/-!
# The retention sweep over lost leads

`anonymize_lost_leads` of `modules/leads/service.py` and the query under it. The
query selects leads and takes a page of them; the sweep then strips the contacts
these leads name.

- `anonymizeLostLeads`, `sweeps`: one run, and several runs on a tenant nothing
  else changes. Every run sees the leads in its own order (`OrderBy`).
- `contact_after_sweeps`: what is left of a contact after some runs.
- `LiveUntouched`, `liveUntouched_iff`: contacts with a lead that is not lost, or
  that moved after the cutoff.
- `Progress`, `progress_iff`: the contacts the sweep is there for.
-/

namespace RealEstate

namespace Leads

namespace Retention

open RealEstate.Core Systems

/-- `ORDER BY updated_at`. -/
abbrev ByUpdatedAt := OrderBy fun a b : Lead => a.updatedAt ≤ b.updatedAt

/-- The default of `anonymize_lost_leads`' `limit`. -/
def sweepLimit : Nat := 500

section

variable (order : ByUpdatedAt) (db : Crm) (tenantId : Uuid) (before : DateTime) (limit : Nat)

/-- `lost_leads_before`. -/
def lostLeadsBefore : List Lead :=
  order.page
    (db.leads.filter fun lead =>
      lead.tenantId = tenantId ∧ lead.stage = .lost ∧ lead.updatedAt ≤ before)
    limit

/-- The sweep's test for a contact that was stripped before. -/
def alreadyStripped (c : Contact) : Prop :=
  c.email = none ∧ c.firstName = none ∧ c.phone = none

/-- Comparisons of columns. -/
instance (c : Contact) : Decidable (alreadyStripped c) :=
  inferInstanceAs (Decidable (_ ∧ _))

/-- A contact `contacts_by_ids` returns for the page of leads. -/
def Candidate (c : Contact) : Prop :=
  c.tenantId = tenantId ∧
    c.id ∈ (lostLeadsBefore order db tenantId before limit).map Lead.contactId

/-- Over the rows of the query. -/
instance (c : Contact) : Decidable (Candidate order db tenantId before limit c) :=
  inferInstanceAs (Decidable (_ ∧ _))

/-- The loop's body, for one row of the table. -/
def sweepContact (c : Contact) : Contact :=
  if Candidate order db tenantId before limit c ∧ ¬ alreadyStripped c then anonymizeContact c
  else c

@[simp] theorem sweepContact_id (c : Contact) :
    (sweepContact order db tenantId before limit c).id = c.id := by
  unfold sweepContact
  split <;> rfl

/-- `anonymize_lost_leads`: the tables afterwards, and the number of contacts stripped. -/
def anonymizeLostLeads : Crm × Nat :=
  (db.mapContacts (sweepContact order db tenantId before limit) (sweepContact_id _ _ _ _ _),
    db.contacts.countP fun c =>
      Candidate order db tenantId before limit c ∧ ¬ alreadyStripped c)

/-- `n` sweeps, one after the other; nothing else changes the tenant. -/
def sweeps (orders : Nat → ByUpdatedAt) : Nat → Crm
  | 0 => db
  | n + 1 => (anonymizeLostLeads (orders n) (sweeps orders n) tenantId before limit).1

/-- One of the tenant's leads on this contact. -/
def LeadOf (c : Contact) (lead : Lead) : Prop :=
  lead ∈ db.leads ∧ lead.tenantId = tenantId ∧ lead.contactId = c.id

/-- The contact has a lead that is not lost, or that moved after the cutoff. -/
def Live (c : Contact) : Prop :=
  ∃ lead, LeadOf db tenantId c lead ∧ (lead.stage ≠ .lost ∨ before < lead.updatedAt)

/-- The contact has leads, and all of them are lost and did not move after the cutoff. -/
def Eligible (c : Contact) : Prop :=
  (∃ lead, LeadOf db tenantId c lead) ∧
    ∀ lead, LeadOf db tenantId c lead → lead.stage = .lost ∧ lead.updatedAt ≤ before

end

/-! ### What sweeps do to a contact -/

section Sweeps

variable {order : ByUpdatedAt} {orders : Nat → ByUpdatedAt} {db : Crm} {tenantId : Uuid}
  {before : DateTime} {limit : Nat}

theorem alreadyStripped_anonymizeContact (c : Contact) : alreadyStripped (anonymizeContact c) :=
  ⟨rfl, rfl, rfl⟩

/-- Whoever is not stripped holds data. -/
theorem holdsData_of_not_alreadyStripped {c : Contact} (h : ¬ alreadyStripped c) :
    c.HoldsData := by
  unfold alreadyStripped at h
  unfold Contact.HoldsData
  tauto

/-- Stripping a contact that is not stripped changes it. -/
theorem anonymizeContact_ne {c : Contact} (h : ¬ alreadyStripped c) : anonymizeContact c ≠ c := by
  intro heq
  apply h
  rw [← heq]
  exact alreadyStripped_anonymizeContact c

/-- A sweep leaves a contact as it is just in case it is no candidate or stripped. -/
theorem sweepContact_eq_self_iff {c : Contact} :
    sweepContact order db tenantId before limit c = c ↔
      Candidate order db tenantId before limit c → alreadyStripped c := by
  unfold sweepContact
  split
  · next h =>
    constructor
    · intro heq
      exact absurd heq (anonymizeContact_ne h.2)
    · intro himp
      exact absurd (himp h.1) h.2
  · next h =>
    simp only [true_iff]
    intro hc
    by_contra hs
    exact h ⟨hc, hs⟩

@[simp] theorem sweeps_leads (n : Nat) :
    (sweeps db tenantId before limit orders n).leads = db.leads := by
  induction n with
  | zero => rfl
  | succ n ih => exact ih

/-- Sweeps change no lead, so each page is drawn from the same leads. -/
theorem candidate_sweeps (n : Nat) (c : Contact) :
    Candidate (orders n) (sweeps db tenantId before limit orders n) tenantId before limit c ↔
      Candidate (orders n) db tenantId before limit c := by
  unfold Candidate lostLeadsBefore
  rw [sweeps_leads]

/-- The contact was in reach of one of the first `n` sweeps. -/
def Reached (orders : Nat → ByUpdatedAt) (db : Crm) (tenantId : Uuid) (before : DateTime)
    (limit n : Nat) (c : Contact) : Prop :=
  ∃ i < n, Candidate (orders i) db tenantId before limit c

/-- Over the sweeps. -/
instance (n : Nat) (c : Contact) : Decidable (Reached orders db tenantId before limit n c) :=
  inferInstanceAs (Decidable (∃ i < n, _))

theorem Reached.mono {m n : Nat} (hmn : m ≤ n) {c : Contact}
    (h : Reached orders db tenantId before limit m c) :
    Reached orders db tenantId before limit n c := by
  obtain ⟨i, hi, hc⟩ := h
  exact ⟨i, lt_of_lt_of_le hi hmn, hc⟩

theorem reached_succ {n : Nat} {c : Contact} :
    Reached orders db tenantId before limit (n + 1) c ↔
      Reached orders db tenantId before limit n c ∨
        Candidate (orders n) db tenantId before limit c := by
  constructor
  · rintro ⟨i, hi, hc⟩
    rcases Nat.lt_succ_iff_lt_or_eq.1 hi with hlt | rfl
    · exact .inl ⟨i, hlt, hc⟩
    · exact .inr hc
  · rintro (h | hc)
    · exact h.mono (Nat.le_succ n)
    · exact ⟨n, Nat.lt_succ_self n, hc⟩

/-- A contact as `n` sweeps leave it. -/
def afterSweeps (orders : Nat → ByUpdatedAt) (db : Crm) (tenantId : Uuid) (before : DateTime)
    (limit n : Nat) (c : Contact) : Contact :=
  if Reached orders db tenantId before limit n c ∧ ¬ alreadyStripped c then anonymizeContact c
  else c

/-- One more sweep strips the contact if it is in reach and none did before. -/
theorem sweepContact_afterSweeps (n : Nat) (c : Contact) :
    sweepContact (orders n) (sweeps db tenantId before limit orders n) tenantId before limit
        (afterSweeps orders db tenantId before limit n c) =
      afterSweeps orders db tenantId before limit (n + 1) c := by
  by_cases hs : alreadyStripped c
  · have hsame : ∀ m, afterSweeps orders db tenantId before limit m c = c :=
      fun m => if_neg fun h => h.2 hs
    rw [hsame, hsame, sweepContact_eq_self_iff]
    exact fun _ => hs
  · by_cases hr : Reached orders db tenantId before limit n c
    · have hdone : ∀ m, n ≤ m → afterSweeps orders db tenantId before limit m c =
          anonymizeContact c := fun m hm => if_pos ⟨hr.mono hm, hs⟩
      rw [hdone n (le_refl n), hdone (n + 1) (Nat.le_succ n), sweepContact_eq_self_iff]
      exact fun _ => alreadyStripped_anonymizeContact c
    · have hstill : afterSweeps orders db tenantId before limit n c = c :=
        if_neg fun h => hr h.1
      rw [hstill, afterSweeps, sweepContact]
      refine if_congr ?_ rfl rfl
      rw [candidate_sweeps, reached_succ]
      tauto

theorem sweeps_contacts (n : Nat) :
    (sweeps db tenantId before limit orders n).contacts =
      db.contacts.map (afterSweeps orders db tenantId before limit n) := by
  induction n with
  | zero =>
    have hnone : ∀ c, afterSweeps orders db tenantId before limit 0 c = c := by
      refine fun c => if_neg fun h => ?_
      obtain ⟨i, hi, -⟩ := h.1
      exact absurd hi (Nat.not_lt_zero i)
    rw [funext hnone, List.map_id']
    rfl
  | succ n ih =>
    show List.map (sweepContact (orders n) _ tenantId before limit)
      (sweeps db tenantId before limit orders n).contacts = _
    rw [ih, List.map_map]
    exact List.map_congr_left fun c _ => sweepContact_afterSweeps n c

/-- A contact that held data is clean after the sweeps if one of them reached it and it
passed the test. -/
theorem holdsData_afterSweeps {n : Nat} {c : Contact} (hdata : c.HoldsData) :
    ¬ (afterSweeps orders db tenantId before limit n c).HoldsData ↔
      Reached orders db tenantId before limit n c ∧ ¬ alreadyStripped c := by
  by_cases h : Reached orders db tenantId before limit n c ∧ ¬ alreadyStripped c
  · rw [afterSweeps, if_pos h]
    exact iff_of_true (not_holdsData_anonymizeContact c) h
  · rw [afterSweeps, if_neg h]
    exact iff_of_false (fun hnot => hnot hdata) h

end Sweeps

/-! ### Contacts with a live lead -/

section Live

variable {order : ByUpdatedAt} {db : Crm} {tenantId : Uuid} {before : DateTime} {limit : Nat}

/-- One run leaves a contact of the tenant as it was if no lead in the page is the
contact's, or if the contact counts as stripped already. -/
theorem mem_anonymizeLostLeads_iff {c : Contact} (hc : c ∈ db.contacts)
    (htenant : c.tenantId = tenantId) :
    c ∈ (anonymizeLostLeads order db tenantId before limit).1.contacts ↔
      ((∃ lead ∈ lostLeadsBefore order db tenantId before limit, lead.contactId = c.id) →
        alreadyStripped c) := by
  have hrow := Crm.mem_mapContacts db (sweepContact_id order db tenantId before limit) hc
    (Eq.refl c.id)
  refine hrow.trans ((eq_comm.trans sweepContact_eq_self_iff).trans ?_)
  rw [Candidate, List.mem_map]
  exact ⟨fun h hlead => h ⟨htenant, hlead⟩, fun h hcandidate => h hcandidate.2⟩

/-- The sweep leaves every contact with a live lead as it was. -/
def LiveUntouched (order : ByUpdatedAt) (db : Crm) (tenantId : Uuid) (before : DateTime)
    (limit : Nat) : Prop :=
  ∀ c ∈ db.contacts, c.tenantId = tenantId → Live db tenantId before c →
    c ∈ (anonymizeLostLeads order db tenantId before limit).1.contacts

variable (order db tenantId before limit) in
/-- The sweep never asks for a contact's other leads: a contact with a live lead is left
alone just when none of its lost leads is in the page, or when it counts as stripped. -/
theorem liveUntouched_iff :
    LiveUntouched order db tenantId before limit ↔
      ∀ c ∈ db.contacts, c.tenantId = tenantId → Live db tenantId before c →
        (∃ lead ∈ lostLeadsBefore order db tenantId before limit, lead.contactId = c.id) →
          alreadyStripped c := by
  unfold LiveUntouched
  constructor
  · intro h c hc htenant hlive
    exact (mem_anonymizeLostLeads_iff hc htenant).1 (h c hc htenant hlive)
  · intro h c hc htenant hlive
    exact (mem_anonymizeLostLeads_iff hc htenant).2 (h c hc htenant hlive)

end Live

/-! ### Progress of repeated sweeps -/

section Progress

variable {orders : Nat → ByUpdatedAt} {db : Crm} {tenantId : Uuid} {before : DateTime}
  {limit : Nat}

/-- An eligible contact of the tenant that still holds data. -/
structure Pending (db : Crm) (tenantId : Uuid) (before : DateTime) (c : Contact) : Prop where
  mem : c ∈ db.contacts
  tenant : c.tenantId = tenantId
  eligible : Eligible db tenantId before c
  data : c.HoldsData

/-- What the sweep is for: it cleans an eligible contact as long as there is one, cleans
all of them in the end, and skips no contact that still holds data. -/
structure Progress (orders : Nat → ByUpdatedAt) (db : Crm) (tenantId : Uuid)
    (before : DateTime) (limit : Nat) : Prop where
  strips : (∃ c, Pending db tenantId before c) →
    ∃ c, Pending db tenantId before c ∧
      ∃ r ∈ (anonymizeLostLeads (orders 0) db tenantId before limit).1.contacts,
        r.id = c.id ∧ ¬ r.HoldsData
  finishes : ∃ n, ∀ c, ¬ Pending (sweeps db tenantId before limit orders n) tenantId before c
  skipsClean : ∀ c ∈ db.contacts, Candidate (orders 0) db tenantId before limit c →
    alreadyStripped c → ¬ c.HoldsData

/-- The pages reach the contacts the sweep is for, and the test tells them from those it
has stripped. -/
structure InReach (orders : Nat → ByUpdatedAt) (db : Crm) (tenantId : Uuid)
    (before : DateTime) (limit : Nat) : Prop where
  passesTest : ∀ c, Pending db tenantId before c → ¬ alreadyStripped c
  inSomePage : ∀ c, Pending db tenantId before c →
    ∃ i, Candidate (orders i) db tenantId before limit c
  oneInFirstPage : (∃ c, Pending db tenantId before c) →
    ∃ c, Pending db tenantId before c ∧ Candidate (orders 0) db tenantId before limit c
  testComplete : ∀ c ∈ db.contacts, Candidate (orders 0) db tenantId before limit c →
    alreadyStripped c → c.lastName = none ∧ c.whatsapp = none ∧ c.notes = none

/-- A contact that counts as stripped is clean if the test missed none of its fields. -/
theorem not_holdsData_iff {c : Contact} (h : alreadyStripped c) :
    ¬ c.HoldsData ↔ c.lastName = none ∧ c.whatsapp = none ∧ c.notes = none := by
  obtain ⟨hemail, hfirst, hphone⟩ := h
  unfold Contact.HoldsData
  tauto

/-- Sweeps leave the leads and the ids alone, so they make no contact eligible or not. -/
theorem eligible_after_sweeps (n : Nat) (c : Contact) :
    Eligible (sweeps db tenantId before limit orders n) tenantId before
        (afterSweeps orders db tenantId before limit n c) ↔
      Eligible db tenantId before c := by
  unfold Eligible LeadOf
  rw [sweeps_leads]
  unfold afterSweeps
  split <;> rfl

theorem afterSweeps_tenantId (n : Nat) (c : Contact) :
    (afterSweeps orders db tenantId before limit n c).tenantId = c.tenantId := by
  unfold afterSweeps
  split <;> rfl

/-- A page that has room for every stale lead reaches every eligible contact. -/
theorem candidate_of_length_le {order : ByUpdatedAt} {c : Contact}
    (hroom : (db.leads.filter fun lead =>
      lead.tenantId = tenantId ∧ lead.stage = .lost ∧ lead.updatedAt ≤ before).length ≤ limit)
    (htenant : c.tenantId = tenantId) (h : Eligible db tenantId before c) :
    Candidate order db tenantId before limit c := by
  obtain ⟨⟨lead, hlead⟩, hstale⟩ := h
  refine ⟨htenant, List.mem_map.2 ⟨lead, ?_, hlead.2.2⟩⟩
  refine OrderBy.mem_page_of_length_le hroom (List.mem_filter.2 ⟨hlead.1, ?_⟩)
  exact decide_eq_true ⟨hlead.2.1, hstale lead hlead⟩

/-- What holds of each element from some number on holds of all from some number on. -/
theorem exists_bound {α : Type} {p : Nat → α → Prop}
    (hmono : ∀ m n a, m ≤ n → p m a → p n a) :
    ∀ l : List α, (∀ a ∈ l, ∃ n, p n a) → ∃ n, ∀ a ∈ l, p n a
  | [], _ => ⟨0, fun _ h => nomatch h⟩
  | a :: l, h => by
    obtain ⟨m, hm⟩ := h a List.mem_cons_self
    obtain ⟨n, hn⟩ := exists_bound hmono l fun b hb => h b (List.mem_cons_of_mem _ hb)
    refine ⟨max m n, fun b hb => ?_⟩
    rcases List.mem_cons.1 hb with rfl | hb
    · exact hmono m _ b (le_max_left m n) hm
    · exact hmono n _ b (le_max_right m n) (hn b hb)

/-- No contact is pending after `n` sweeps just when each that was has been in reach of one
of them and passed the test. -/
theorem none_pending_sweeps_iff {n : Nat} :
    (∀ c, ¬ Pending (sweeps db tenantId before limit orders n) tenantId before c) ↔
      ∀ c, Pending db tenantId before c →
        Reached orders db tenantId before limit n c ∧ ¬ alreadyStripped c := by
  constructor
  · intro h c hc
    rw [← holdsData_afterSweeps hc.data]
    intro hdata
    refine h (afterSweeps orders db tenantId before limit n c) ⟨?_, ?_, ?_, hdata⟩
    · rw [sweeps_contacts]
      exact List.mem_map_of_mem hc.mem
    · exact (afterSweeps_tenantId n c).trans hc.tenant
    · exact (eligible_after_sweeps n c).2 hc.eligible
  · -- A row that is pending afterwards comes from a contact that was pending before.
    rintro h r ⟨hmem, htenant, heligible, hdata⟩
    rw [sweeps_contacts] at hmem
    obtain ⟨c, hc, rfl⟩ := List.mem_map.1 hmem
    have hbefore : c.HoldsData := by
      -- A contact without data is not written by a sweep, so it holds none afterwards.
      by_contra hclean
      have hstripped : alreadyStripped c := by
        by_contra hs
        exact hclean (holdsData_of_not_alreadyStripped hs)
      rw [afterSweeps, if_neg fun hboth => hboth.2 hstripped] at hdata
      exact hclean hdata
    have hpending : Pending db tenantId before c :=
      ⟨hc, (afterSweeps_tenantId n c).symm.trans htenant, (eligible_after_sweeps n c).1 heligible,
        hbefore⟩
    exact (holdsData_afterSweeps hbefore).2 (h c hpending) hdata

/-- **The sweeps finish just in case every pending contact is a candidate of one that strips it.**
-/
theorem finishes_iff :
    (∃ n, ∀ c, ¬ Pending (sweeps db tenantId before limit orders n) tenantId before c) ↔
      ∀ c, Pending db tenantId before c →
        (∃ i, Candidate (orders i) db tenantId before limit c) ∧ ¬ alreadyStripped c := by
  constructor
  · rintro ⟨n, hn⟩ c hc
    obtain ⟨⟨i, -, hi⟩, hs⟩ := none_pending_sweeps_iff.1 hn c hc
    exact ⟨⟨i, hi⟩, hs⟩
  · intro h
    -- every contact of the finite table is reached by some number of sweeps
    obtain ⟨n, hn⟩ := exists_bound
      (p := fun n c => Pending db tenantId before c →
        Reached orders db tenantId before limit n c)
      (fun m n c hmn hm hc => (hm hc).mono hmn) db.contacts (by
        intro c _
        by_cases hc : Pending db tenantId before c
        · obtain ⟨⟨i, hi⟩, -⟩ := h c hc
          exact ⟨i + 1, fun _ => ⟨i, Nat.lt_succ_self i, hi⟩⟩
        · exact ⟨0, fun hc' => absurd hc' hc⟩)
    exact ⟨n, none_pending_sweeps_iff.2 fun c hc => ⟨hn c hc.mem hc, (h c hc).2⟩⟩

/-- One run cleans a pending contact just when one is in its page and passes the test. -/
theorem strips_iff {c : Contact} (hc : Pending db tenantId before c) :
    (∃ r ∈ (anonymizeLostLeads (orders 0) db tenantId before limit).1.contacts,
        r.id = c.id ∧ ¬ r.HoldsData) ↔
      Candidate (orders 0) db tenantId before limit c ∧ ¬ alreadyStripped c := by
  have hrow : ∀ r, r.id = c.id →
      (r ∈ (anonymizeLostLeads (orders 0) db tenantId before limit).1.contacts ↔
        r = sweepContact (orders 0) db tenantId before limit c) := fun r hid =>
    Crm.mem_mapContacts db (sweepContact_id (orders 0) db tenantId before limit) hc.mem hid
  by_cases h : Candidate (orders 0) db tenantId before limit c ∧ ¬ alreadyStripped c
  · have hmem := (hrow (anonymizeContact c) rfl).2 (if_pos h).symm
    exact iff_of_true ⟨_, hmem, rfl, not_holdsData_anonymizeContact c⟩ h
  · refine iff_of_false ?_ h
    rintro ⟨r, hr, hid, hclean⟩
    rw [(hrow r hid).1 hr, sweepContact, if_neg h] at hclean
    exact hclean hc.data

variable (orders db tenantId before limit) in
/-- The query does not leave out the contacts that were stripped, and the test looks at
three of the six fields: the sweep makes progress just when its pages happen to reach the
contacts it is for, and no contact in them holds only the other three. -/
theorem progress_iff :
    Progress orders db tenantId before limit ↔ InReach orders db tenantId before limit := by
  constructor
  · rintro ⟨hstrips, hfinishes, hskips⟩
    rw [finishes_iff] at hfinishes
    constructor
    · exact fun c hc => (hfinishes c hc).2
    · exact fun c hc => (hfinishes c hc).1
    · intro hsome
      obtain ⟨c, hc, hr⟩ := hstrips hsome
      exact ⟨c, hc, ((strips_iff hc).1 hr).1⟩
    · exact fun c hc hcandidate hs => (not_holdsData_iff hs).1 (hskips c hc hcandidate hs)
  · rintro ⟨hpasses, hpages, hfirst, htest⟩
    constructor
    · intro hsome
      obtain ⟨c, hc, hcandidate⟩ := hfirst hsome
      exact ⟨c, hc, (strips_iff hc).2 ⟨hcandidate, hpasses c hc⟩⟩
    · exact finishes_iff.2 fun c hc => ⟨hpages c hc, hpasses c hc⟩
    · exact fun c hc hcandidate hs => (not_holdsData_iff hs).2 (htest c hc hcandidate hs)

end Progress

/-! ### Two contacts the sweep gets wrong -/

/-- For `mergeSort`. -/
instance : Std.Total fun a b : Lead => a.updatedAt ≤ b.updatedAt :=
  ⟨fun a b => Int.le_total a.updatedAt b.updatedAt⟩

/-- For `mergeSort`. -/
instance : IsTrans Lead fun a b => a.updatedAt ≤ b.updatedAt :=
  ⟨fun _ _ _ hab hbc => Int.le_trans hab hbc⟩

/-- The order of the query, by insertion. -/
def byUpdatedAt : ByUpdatedAt := .insertion _

/-- A buyer who lost one deal years ago and is touring again. -/
def returningBuyer : Crm where
  contacts := [{ id := 1, tenantId := 1, email := some "buyer@mail.test" }]
  leads := [{ id := 1, tenantId := 1, contactId := 1, stage := .lost, updatedAt := 0 },
    { id := 2, tenantId := 1, contactId := 1, stage := .touring, updatedAt := 100 }]
  contactIds := by decide

/-- The returning buyer is stripped. -/
theorem not_liveUntouched_returningBuyer :
    ¬ LiveUntouched byUpdatedAt returningBuyer 1 10 sweepLimit := by
  intro h
  have hcontact := List.mem_singleton_self
    ({ id := 1, tenantId := 1, email := some "buyer@mail.test" } : Contact)
  have hlive : Live returningBuyer 1 10
      { id := 1, tenantId := 1, email := some "buyer@mail.test" } :=
    ⟨{ id := 2, tenantId := 1, contactId := 1, stage := .touring, updatedAt := 100 },
      ⟨List.mem_cons_of_mem _ (List.mem_singleton_self _), rfl, rfl⟩, .inl (by decide)⟩
  have hstripped := (mem_anonymizeLostLeads_iff hcontact rfl).1 (h _ hcontact rfl hlive)
    ⟨{ id := 1, tenantId := 1, contactId := 1, stage := .lost, updatedAt := 0 },
      List.mem_singleton_self _, rfl⟩
  exact absurd hstripped (by decide)

/-- A caller who left a family name only. -/
def surnameOnly : Crm where
  contacts := [{ id := 1, tenantId := 1, lastName := some "Haddad" }]
  leads := [{ id := 1, tenantId := 1, contactId := 1, stage := .lost, updatedAt := 0 }]
  contactIds := by decide

/-- The caller counts as stripped, and no sweep ever cleans the contact. -/
theorem not_progress_surnameOnly :
    ¬ Progress (fun _ => byUpdatedAt) surnameOnly 1 10 sweepLimit := by
  intro h
  have hlead : ({ id := 1, tenantId := 1, contactId := 1, stage := .lost, updatedAt := 0 } : Lead) ∈
      lostLeadsBefore byUpdatedAt surnameOnly 1 10 sweepLimit := List.mem_singleton_self _
  refine h.skipsClean { id := 1, tenantId := 1, lastName := some "Haddad" }
    (List.mem_singleton_self _) ⟨rfl, List.mem_map.2 ⟨_, hlead, rfl⟩⟩ (by decide) ?_
  exact .inr (.inl (by decide))

end Retention

end Leads

end RealEstate
