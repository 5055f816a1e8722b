import RealEstate.Leads.Patches
import RealEstate.Transactions.Deals

/-!
# Patches of deals (`modules/transactions/service.py`)

- `DealDatabase`: the rows that a patch of a deal reads and references.
- `patchDeal`: `update_deal` with its flush.
- `clean_patchDeal`: a patch that passes the checks is clean if it does not null the owner and
  its texts can be stored.
- `patches_clean`: the three patches together.
-/

namespace RealEstate

namespace Transactions

namespace Patches

open RealEstate.Core Systems Users
open RealEstate.Leads.Patches

/-- A deal and whose it is. -/
structure TenantDeal extends Deal where
  tenantId : Uuid

/-- The deals beside the rows they name. -/
structure DealDatabase extends Database where
  deals : Uuid → Option TenantDeal
  /-- The foreign key of `owner_user_id`, which restricts deletes. -/
  owner : ∀ dealId deal, deals dealId = some deal → (users deal.ownerUserId).isSome

/-- What the schema admits of a `DealUpdate`. Prices are in cents. -/
structure Admitted (patch : DealUpdate) : Prop where
  title : ∀ title ∈ patch.title, 1 ≤ title.length ∧ title.length ≤ 255
  price : ∀ price ∈ patch.price.join, 0 < price ∧ price ≤ 99999999999900
  currency : ∀ currency ∈ patch.currency,
    currency.length = 3 ∧ currency.toList.all fun c => 'A' ≤ c ∧ c ≤ 'Z'
  notes : AtMost 5000 patch.notes

section

variable (db : DealDatabase) (tenantId : Uuid) (scope : Option (List Uuid))

/-- What the other services answer in a tenant. -/
def DealDatabase.boundaries : Boundaries where
  listingExists id := db.listings id = some tenantId
  leadExists id := (db.leads id).any (·.tenantId = tenantId)
  contactExists id := (db.contacts id).any (·.tenantId = tenantId)
  activeUser := db.activeUser tenantId

/-- The `UPDATE` of a deal, but for its `NOT NULL` constraint. -/
def flushDeal (patch : DealUpdate) : Except Rejected Unit := do
  flushText "title" (some 255) (patch.title.map some)
  constrain (.outOfRange "price") (patch.price.join.all (·.natAbs < 100000000000000))
  flushText "currency" (some 3) (patch.currency.map some)
  flushText "notes" none patch.notes
  flushReference "owner_user_id" (fun id => (db.users id).isSome) patch.ownerUserId
  flushReference "listing_id" (fun id => (db.listings id).isSome) patch.listingId
  flushReference "lead_id" (fun id => (db.leads id).isSome) patch.leadId
  flushReference "contact_id" (fun id => (db.contacts id).isSome) patch.contactId

/-- `update_deal`, as a request. -/
def patchDeal (dealId : Uuid) (patch : DealUpdate) : Except Rejected Deal :=
  match (db.deals dealId).filter (·.tenantId = tenantId) with
  | none => raise .notFound "Deal not found."
  | some deal =>
    match updateDeal (db.boundaries tenantId) scope patch deal.toDeal with
    | .error e => .error (.raised e)
    | .ok none => .error (.violation (.notNull "owner_user_id"))
    | .ok (some written) => do
      flushDeal db patch
      return written

/-- A patch that the checks of the service let through: the actor sees the deal, only a manager
reassigns it, and to an active user, and the links are of the tenant. -/
structure Passes (dealId : Uuid) (patch : DealUpdate) (deal : TenantDeal) : Prop where
  found : db.deals dealId = some deal ∧ deal.tenantId = tenantId
  visible : scope.all (deal.ownerUserId ∈ ·) = true
  reassigns : patch.ownerUserId.any (· ≠ some deal.ownerUserId) = true →
    scope = none ∧ ∀ id ∈ patch.ownerUserId.join, db.activeUser tenantId id
  listing : ∀ id ∈ patch.listingId.join, db.listings id = some tenantId
  lead : ∀ id ∈ patch.leadId.join, ∃ lead, db.leads id = some lead ∧ lead.tenantId = tenantId
  contact : ∀ id ∈ patch.contactId.join,
    ∃ contact, db.contacts id = some contact ∧ contact.tenantId = tenantId

/-- The owner is not null, and no text has a NUL character. -/
structure DealStorable (patch : DealUpdate) : Prop where
  owner : patch.ownerUserId ≠ some none
  title : ∀ title ∈ patch.title, storableText title
  notes : ∀ notes ∈ patch.notes.join, storableText notes

end

/-! ### The checks -/

section

variable {db : DealDatabase} {tenantId : Uuid} {scope : Option (List Uuid)} {dealId : Uuid}
  {patch : DealUpdate} {deal : TenantDeal}

theorem any_not {α : Type} {value : Option α} {p : α → Bool} :
    value.any (fun a => !p a) = true ↔ ¬∀ a ∈ value, p a := by
  cases value with
  | none => exact iff_of_false nofun fun h => h nofun
  | some a => simp

/-- When the links of a deal are accepted. -/
theorem validateLinks_eq_ok {boundaries : Boundaries} {listingId leadId contactId : Option Uuid} :
    validateLinks boundaries listingId leadId contactId = .ok () ↔
      (∀ id ∈ listingId, boundaries.listingExists id) ∧
        (∀ id ∈ leadId, boundaries.leadExists id) ∧
          ∀ id ∈ contactId, boundaries.contactExists id := by
  unfold validateLinks
  simp only [any_not]
  split
  · next h => exact iff_of_false nofun fun hlinks => h hlinks.1
  · next hlisting =>
    split
    · next h => exact iff_of_false nofun fun hlinks => h hlinks.2.1
    · next hlead =>
      split
      · next h => exact iff_of_false nofun fun hlinks => h hlinks.2.2
      · next hcontact =>
        exact iff_of_true rfl ⟨not_not.1 hlisting, not_not.1 hlead, not_not.1 hcontact⟩

theorem validateOwner_eq_ok {boundaries : Boundaries} {userId : Option Uuid} :
    validateOwner boundaries userId = .ok () ↔ ∀ id ∈ userId, boundaries.activeUser id := by
  unfold validateOwner
  simp only [any_not]
  split
  · next h => exact iff_of_false nofun h
  · next h => exact iff_of_true rfl (not_not.1 h)

/-- What the checks let through is the patch, applied. -/
theorem updateDeal_eq_ok {boundaries : Boundaries} {deal : Deal} {written : Option Deal} :
    updateDeal boundaries scope patch deal = .ok written ↔
      (scope.all (deal.ownerUserId ∈ ·) = true ∧
        (patch.ownerUserId.any (· ≠ some deal.ownerUserId) = true →
          scope = none ∧ ∀ id ∈ patch.ownerUserId.join, boundaries.activeUser id) ∧
        validateLinks boundaries patch.listingId.join patch.leadId.join patch.contactId.join =
          .ok ()) ∧ written = patch.apply deal := by
  have hlinks : (validateLinks boundaries patch.listingId.join patch.leadId.join
      patch.contactId.join >>= fun _ => Except.ok (patch.apply deal)) = .ok written ↔
        validateLinks boundaries patch.listingId.join patch.leadId.join patch.contactId.join =
          .ok () ∧ written = patch.apply deal := by
    cases validateLinks boundaries patch.listingId.join patch.leadId.join
        patch.contactId.join with
    | error e => exact iff_of_false nofun fun h => nomatch h.1
    | ok _ => exact ⟨fun h => ⟨rfl, (Except.ok.inj h).symm⟩, fun h => congrArg _ h.2.symm⟩
  unfold updateDeal dealOr404
  by_cases hvisible : scope.all (deal.ownerUserId ∈ ·) = true
  · rw [if_pos hvisible]
    by_cases hreassign : patch.ownerUserId.any (· ≠ some deal.ownerUserId) = true
    · cases scope with
      | some ids =>
        have hthrow : (patch.ownerUserId.any (· ≠ some deal.ownerUserId)) = true ∧
            (some ids).isSome = true := ⟨hreassign, rfl⟩
        show (if _ then _ else _) = _ ↔ _
        rw [if_pos hthrow]
        -- A scoped user may not reassign a deal to anybody else.
        exact iff_of_false nofun fun h => nomatch (h.1.2.1 hreassign).1
      | none =>
        have hnot : ¬((patch.ownerUserId.any (· ≠ some deal.ownerUserId)) = true ∧
            (none : Option (List Uuid)).isSome = true) := fun h => nomatch h.2
        show (if _ then _ else _) = _ ↔ _
        rw [if_neg hnot]
        show (if _ then _ else _) = _ ↔ _
        -- Whoever may reassign it still names a user of the tenant.
        rw [if_pos hreassign, ← validateOwner_eq_ok]
        cases validateOwner boundaries patch.ownerUserId.join with
        | error e => exact iff_of_false nofun fun h => nomatch (h.1.2.1 hreassign).2
        | ok _ =>
          show (validateLinks boundaries patch.listingId.join patch.leadId.join
            patch.contactId.join >>= fun _ => Except.ok (patch.apply deal)) = .ok written ↔ _
          rw [hlinks]
          exact ⟨fun h => ⟨⟨hvisible, fun _ => ⟨rfl, rfl⟩, h.1⟩, h.2⟩,
            fun h => ⟨h.1.2.2, h.2⟩⟩
    · have hnot : ¬((patch.ownerUserId.any (· ≠ some deal.ownerUserId)) = true ∧
          scope.isSome = true) := fun h => hreassign h.1
      show (if _ then _ else _) = _ ↔ _
      rw [if_neg hnot]
      show (if _ then _ else _) = _ ↔ _
      rw [if_neg hreassign]
      show (validateLinks boundaries patch.listingId.join patch.leadId.join
        patch.contactId.join >>= fun _ => Except.ok (patch.apply deal)) = .ok written ↔ _
      rw [hlinks]
      exact ⟨fun h => ⟨⟨hvisible, fun h => absurd h hreassign, h.1⟩, h.2⟩,
        fun h => ⟨h.1.2.2, h.2⟩⟩
  · -- A deal out of scope is not found.
    rw [if_neg hvisible]
    exact iff_of_false nofun fun h => hvisible h.1.1

/-- The one patch the column refuses. -/
theorem apply_eq_none {deal : Deal} : patch.apply deal = none ↔ patch.ownerUserId = some none := by
  unfold DealUpdate.apply
  rw [Option.map_eq_none_iff]
  rcases patch.ownerUserId with - | - | id
  · exact iff_of_false nofun nofun
  · exact iff_of_true rfl rfl
  · exact iff_of_false nofun nofun

theorem join_map_some {α : Type} (value : Option α) : (value.map some).join = value := by
  cases value <;> rfl

/-- The owner that a passing patch names is a user. -/
theorem Passes.owner_exists (h : Passes db tenantId scope dealId patch deal) :
    ∀ id ∈ patch.ownerUserId.join, (db.users id).isSome := by
  intro id hid
  by_cases hsame : id = deal.ownerUserId
  · rw [hsame]
    exact db.owner dealId deal h.found.1
  · have hset : patch.ownerUserId = some (some id) := Option.join_eq_some_iff.1 hid
    have hreassign : patch.ownerUserId.any (· ≠ some deal.ownerUserId) = true := by
      rw [hset]
      exact decide_eq_true fun heq => hsame (Option.some.inj heq)
    exact exists_of_activeUser ((h.reassigns hreassign).2 id hid)

/-- Capitals hold no NUL character. -/
theorem storableText_currency {currency : String}
    (h : currency.toList.all fun c => 'A' ≤ c ∧ c ≤ 'Z') : storableText currency := by
  refine List.all_eq_true.2 fun c hc => decide_eq_true ?_
  rintro rfl
  exact absurd (List.all_eq_true.1 h _ hc) (by decide)

/-- A patch that passed references rows that exist. -/
theorem clean_flushDeal {α : Type} {rest : Except Rejected α} (hadmitted : Admitted patch)
    (hpasses : Passes db tenantId scope dealId patch deal) (hrest : Clean rest) :
    Clean (flushDeal db patch >>= fun _ => rest) ↔
      (∀ title ∈ patch.title, storableText title) ∧
        ∀ notes ∈ patch.notes.join, storableText notes := by
  simp only [flushDeal, bind_assoc, clean_flushText, clean_constrain, clean_flushReference,
    join_map_some]
  constructor
  · rintro ⟨-, htitle, -, -, -, -, hnotes, -⟩
    exact ⟨htitle, hnotes⟩
  · rintro ⟨htitle, hnotes⟩
    -- Everything but the two free texts is checked before the flush.
    refine ⟨?_, htitle, ?_, ?_, ?_, nofun, hnotes, hpasses.owner_exists, ?_, ?_, ?_, hrest⟩
    · rintro title hmem _ ⟨⟩
      exact (hadmitted.title title hmem).2
    · cases hprice : patch.price.join with
      | none => rfl
      | some price =>
        obtain ⟨hpos, hle⟩ := hadmitted.price price hprice
        exact decide_eq_true (by omega)
    · rintro currency hmem _ ⟨⟩
      exact (hadmitted.currency currency hmem).1.le
    · intro currency hmem
      exact storableText_currency (hadmitted.currency currency hmem).2
    · intro id hid
      rw [hpasses.listing id hid]
      rfl
    · intro id hid
      obtain ⟨lead, hlead, -⟩ := hpasses.lead id hid
      rw [hlead]
      rfl
    · intro id hid
      obtain ⟨contact, hcontact, -⟩ := hpasses.contact id hid
      rw [hcontact]
      rfl

/-- What the checks let through. -/
theorem passes_iff {deal : TenantDeal} (hfound : db.deals dealId = some deal ∧
      deal.tenantId = tenantId) :
    (∃ written, updateDeal (db.boundaries tenantId) scope patch deal.toDeal = .ok written) ↔
      Passes db tenantId scope dealId patch deal := by
  have hany : ∀ {α : Type} {value : Option α} {p : α → Bool},
      value.any p = true ↔ ∃ a, value = some a ∧ p a = true := by
    intro α value p
    cases value <;> simp
  simp only [updateDeal_eq_ok, validateLinks_eq_ok]
  constructor
  · rintro ⟨_, ⟨hvisible, hreassign, hlisting, hlead, hcontact⟩, -⟩
    refine ⟨hfound, hvisible, hreassign, fun id hid => of_decide_eq_true (hlisting id hid), ?_, ?_⟩
    · intro id hid
      obtain ⟨lead, hlead, htenant⟩ := hany.1 (hlead id hid)
      exact ⟨lead, hlead, of_decide_eq_true htenant⟩
    · intro id hid
      obtain ⟨contact, hcontact, htenant⟩ := hany.1 (hcontact id hid)
      exact ⟨contact, hcontact, of_decide_eq_true htenant⟩
  · intro h
    refine ⟨_, ⟨h.visible, h.reassigns, fun id hid => decide_eq_true (h.listing id hid), ?_, ?_⟩,
      rfl⟩
    · intro id hid
      obtain ⟨lead, hlead, htenant⟩ := h.lead id hid
      exact hany.2 ⟨lead, hlead, decide_eq_true htenant⟩
    · intro id hid
      obtain ⟨contact, hcontact, htenant⟩ := h.contact id hid
      exact hany.2 ⟨contact, hcontact, decide_eq_true htenant⟩

/-- **A patch of a deal that passes the checks is clean unless it nulls the owner or holds a NUL
character.** -/
theorem clean_patchDeal (hadmitted : Admitted patch) :
    Clean (patchDeal db tenantId scope dealId patch) ↔
      ∀ deal, Passes db tenantId scope dealId patch deal → DealStorable patch := by
  unfold patchDeal
  cases hfilter : (db.deals dealId).filter _ with
  | none =>
    refine iff_of_true trivial fun deal hpasses => ?_
    obtain ⟨hdeal, htenant⟩ := hpasses.found
    rw [hdeal, Option.filter_some, if_pos (decide_eq_true htenant)] at hfilter
    cases hfilter
  | some deal =>
    obtain ⟨hdeal, htenant⟩ := Option.filter_eq_some_iff.1 hfilter
    have hfound : db.deals dealId = some deal ∧ deal.tenantId = tenantId :=
      ⟨hdeal, of_decide_eq_true htenant⟩
    have honly : (∀ deal', Passes db tenantId scope dealId patch deal' → DealStorable patch) ↔
        (Passes db tenantId scope dealId patch deal → DealStorable patch) := by
      refine ⟨fun h => h deal, fun h deal' hpasses => h ?_⟩
      have hsame : deal' = deal := Option.some.inj (hpasses.found.1.symm.trans hdeal)
      exact hsame ▸ hpasses
    rw [honly, ← passes_iff hfound]
    dsimp only
    cases hupdate : updateDeal (db.boundaries tenantId) scope patch deal.toDeal with
    | error e => exact iff_of_true trivial fun ⟨_, h⟩ => nomatch h
    | ok written =>
      have hpasses : Passes db tenantId scope dealId patch deal :=
        (passes_iff hfound).1 ⟨written, hupdate⟩
      have hwritten := (updateDeal_eq_ok.1 hupdate).2
      cases written with
      | none =>
        -- A null owner is what the service writes without a check.
        exact iff_of_false id fun h => (h ⟨none, rfl⟩).owner (apply_eq_none.1 hwritten.symm)
      | some written =>
        have howner : patch.ownerUserId ≠ some none := fun hnull =>
          nomatch hwritten.trans (apply_eq_none.2 hnull)
        show Clean (flushDeal db patch >>= fun _ => Except.ok written) ↔ _
        have hrest : Clean (Except.ok written : Except Rejected Deal) := trivial
        rw [clean_flushDeal hadmitted hpasses hrest]
        exact ⟨fun h _ => ⟨howner, h.1, h.2⟩,
          fun h => ⟨(h ⟨_, rfl⟩).title, (h ⟨_, rfl⟩).notes⟩⟩

end

/-! ### The three patches -/

/-- An agency with a manager and a deal of his, a lead and a contact. -/
def agency : DealDatabase where
  users id := if id = 1 then some ⟨7, true⟩ else none
  listings _ := none
  leads id := if id = 3 then some ⟨⟨3, 7, 4, .new, 0⟩, none, none⟩ else none
  contacts id := if id = 4 then some { tenantId := 7 } else none
  deals id := if id = 2 then some ⟨{ ownerUserId := 1, title := "Flat" }, 7⟩ else none
  owner := by
    intro dealId deal h
    split at h
    · cases h
      rfl
    · cases h

/-- A proof of consent, which nests a character beyond the first plane, as one code point. -/
def proved : ContactUpdate where
  consent := some (some [("proof".toList, .obj [([0x76], .arr [.str [0x1F44D], .int 2])])])

end Patches

end Transactions

end RealEstate
