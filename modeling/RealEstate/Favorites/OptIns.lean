import RealEstate.Favorites.Signups

/-!
# Opting in and out

- `Inv`: what the tables and the requests under way say of each other.
- `alerts_opted_in`: no alert goes to an address that did not confirm, and a search is confirmed
  once: with one lead and one consent record.
- `opt_out_final`: a search that was confirmed and turned off stays off.
-/

namespace RealEstate

namespace Favorites

namespace Signups

open RealEstate.Core Systems
open Digests (SearchUpdate SearchUpdate.apply entries mem_entries)

variable {valid : JsonObject → Bool} {s s' : State} {t : Nat} {id : Uuid}

/-! ### Searches and consents -/

/-- The address confirmed the search. -/
def State.OptedIn (s : State) (id : Uuid) (address : String) : Prop :=
  ∃ c ∈ s.consents, c.searchId = id ∧ c.email = address

/-- What a request knows about the rows. -/
def Phase.Ok (s : State) : Phase → Prop
  | .signingUp row => row.id ∈ s.ids ∧ s.searches.row row.id = none ∧ row.isActive = false ∧
      row.id ∉ s.confirmed
  | .activating id tenantId address => ∃ row, s.searches.row id = some row ∧
      row.tenantId = tenantId ∧ email row = some address
  | .sweeping _ todo _ => ∀ p ∈ todo, ∀ address, email p.2 = some address → s.OptedIn p.1 address
  | _ => True

/-- Whoever gets alerts has agreed to. -/
structure Inv (s : State) : Prop where
  permits : Permits s
  known : ∀ id row, s.searches.row id = some row → id ∈ s.ids
  /-- An address gets alerts only after it confirmed. -/
  active : ∀ id row, s.searches.row id = some row → (email row).isSome → row.isActive = true →
    id ∈ s.confirmed
  leads : s.leads = s.consents
  once : s.confirmed.Nodup
  about : ∀ c ∈ s.consents, ∃ row, s.searches.row c.searchId = some row ∧
    row.tenantId = c.tenantId ∧ email row = some c.email
  phases : ∀ t phase, s.requests t = some phase → phase.Ok s
  signing : ∀ t t' id, s.signing t = some id → s.signing t' = some id → t = t'
  alerts : ∀ p ∈ s.alerts, ∀ address, p.2 = .email address → s.OptedIn p.1 address

/-- The consent of an active search names its address. -/
theorem Inv.optedIn (h : Inv s) {row : SavedSearch} {address : String}
    (hrow : s.searches.row id = some row) (hemail : email row = some address)
    (hactive : row.isActive = true) : s.OptedIn id address := by
  obtain ⟨c, hc, rfl⟩ := List.mem_map.1 (h.active id row hrow (hemail ▸ rfl) hactive)
  obtain ⟨row', hrow', -, hemail'⟩ := h.about c hc
  cases hrow.symm.trans hrow'
  exact ⟨c, hc, rfl, Option.some.inj (hemail'.symm.trans hemail)⟩

/-- The rows of addresses stay, keep their address and are not turned on. -/
structure Onward (old new : Rows Uuid SavedSearch) : Prop where
  stays : ∀ id row, old.row id = some row → (email row).isSome →
    ∃ row', new.row id = some row' ∧ row'.tenantId = row.tenantId ∧ email row' = email row
  active : ∀ id row', new.row id = some row' → (email row').isSome → row'.isActive = true →
    ∃ row, old.row id = some row ∧ (email row).isSome ∧ row.isActive = true

theorem Onward.refl (rows : Rows Uuid SavedSearch) : Onward rows rows :=
  ⟨fun _ row h _ => ⟨row, h, rfl, rfl⟩, fun _ row h hemail hactive => ⟨row, h, hemail, hactive⟩⟩

theorem Onward.trans {a b c : Rows Uuid SavedSearch} (hab : Onward a b) (hbc : Onward b c) :
    Onward a c := by
  refine ⟨fun id row h hemail => ?_, fun id row h hemail hactive => ?_⟩
  · obtain ⟨row', h', htenant', hemail'⟩ := hab.stays id row h hemail
    obtain ⟨row'', h'', htenant'', hemail''⟩ := hbc.stays id row' h' (hemail' ▸ hemail)
    exact ⟨row'', h'', htenant''.trans htenant', hemail''.trans hemail'⟩
  · obtain ⟨row', h', hemail', hactive'⟩ := hbc.active id row h hemail hactive
    exact hab.active id row' h' hemail' hactive'

/-- A row is overwritten. -/
theorem Onward.put {rows : Rows Uuid SavedSearch} {row row' : SavedSearch}
    (hrow : rows.row id = some row)
    (hemail : (email row).isSome ∨ (email row').isSome →
      row'.tenantId = row.tenantId ∧ email row' = email row ∧
        (row'.isActive = true → row.isActive = true)) :
    Onward rows (rows.put id row') := by
  refine ⟨fun j other hother hsome => ?_, fun j other hother hsome hactive => ?_⟩
  · by_cases hj : j = id
    · subst hj
      cases hrow.symm.trans hother
      obtain ⟨htenant, hsame, -⟩ := hemail (.inl hsome)
      exact ⟨row', Rows.row_put_self .., htenant, hsame⟩
    · exact ⟨other, (Rows.row_put_of_ne _ _ hj).trans hother, rfl, rfl⟩
  · rcases Rows.row_put hother with ⟨rfl, rfl⟩ | ⟨-, hold⟩
    · obtain ⟨-, hsame, hlower⟩ := hemail (.inr hsome)
      exact ⟨row, hrow, hsame ▸ hsome, hlower hactive⟩
    · exact ⟨other, hold, hsome, hactive⟩

/-- An `UPDATE` of a row that exists. -/
theorem update_eq_some {rows rows' : Rows Uuid SavedSearch} {f : SavedSearch → SavedSearch}
    (h : update rows id f = some rows') :
    ∃ row, rows.row id = some row ∧ rows' = rows.put id (f row) := by
  obtain ⟨row, hrow, rfl⟩ := Option.map_eq_some_iff.1 h
  exact ⟨row, hrow, rfl⟩

theorem isSome_of_put {rows : Rows Uuid SavedSearch} {row row' other : SavedSearch} {j : Uuid}
    (hrow : rows.row id = some row) (h : (rows.put id row').row j = some other) :
    (rows.row j).isSome := by
  rcases Rows.row_put h with ⟨rfl, -⟩ | ⟨-, hold⟩
  · exact hrow ▸ rfl
  · exact hold ▸ rfl

/-- A row is added. -/
theorem Onward.insert {rows : Rows Uuid SavedSearch} {row : SavedSearch}
    (hnone : rows.row id = none) (hoff : (email row).isSome → row.isActive = false) :
    Onward rows (rows.put id row) := by
  refine ⟨fun j other hother _ => ?_, fun j other hother hemail hon => ?_⟩
  · have hne : j ≠ id := by
      rintro rfl
      cases hnone.symm.trans hother
    exact ⟨other, (Rows.row_put_of_ne _ _ hne).trans hother, rfl, rfl⟩
  · rcases Rows.row_put hother with ⟨-, rfl⟩ | ⟨-, hold⟩
    · cases (hoff hemail).symm.trans hon
    · exact ⟨other, hold, hemail, hon⟩

/-- The row of an account is deleted. -/
theorem Onward.delete {rows : Rows Uuid SavedSearch} {row : SavedSearch}
    (hrow : rows.row id = some row) (huser : email row = none) : Onward rows (rows.delete id) := by
  refine ⟨fun j other hother hsome => ?_, fun j other hother hsome hactive => ?_⟩
  · have hne : j ≠ id := by
      rintro rfl
      cases hrow.symm.trans hother
      rw [huser] at hsome
      cases hsome
    exact ⟨other, (Function.update_of_ne hne ..).trans hother, rfl, rfl⟩
  · exact ⟨other, (Rows.row_delete hother).2, hsome, hactive⟩

/-- A search of an account has no address of its own. -/
theorem email_of_ownedBy {tenantId userId : Nat} {row : SavedSearch}
    (h : ownedBy tenantId userId row = true) : email row = none := by
  have howner : row.owner = .user userId := of_decide_eq_true (Bool.and_eq_true_iff.1 h).2
  rw [email, howner]

/-- An edit of an account's search. -/
theorem Onward.edit {rows : Rows Uuid SavedSearch} {row : SavedSearch} {tenantId userId : Nat}
    {patch : SearchUpdate} (hrow : rows.row id = some row)
    (howned : ownedBy tenantId userId row = true) :
    Onward rows (rows.put id (patch.apply row)) := by
  refine .put hrow fun hsome => ?_
  have hnone : email row = none := email_of_ownedBy howned
  have hnone' : email (patch.apply row) = none := email_of_ownedBy howned
  rw [hnone, hnone'] at hsome
  exact absurd hsome (by decide)

/-- A sweep turns rows off, or stamps them. -/
theorem onward_markAll {marks : List (Uuid × Mark)} : ∀ {rows rows' : Rows Uuid SavedSearch},
    markAll rows marks = some rows' → Onward rows rows' ∧
      ∀ j row', rows'.row j = some row' → (rows.row j).isSome := by
  induction marks with
  | nil =>
    intro rows rows' h
    cases h
    exact ⟨.refl _, fun j row' h => h ▸ rfl⟩
  | cons mark marks ih =>
    intro rows rows' h
    obtain ⟨mid, hmid, h⟩ := Option.bind_eq_some_iff.1 h
    obtain ⟨row, hrow, rfl⟩ := update_eq_some hmid
    obtain ⟨honward, hknown⟩ := ih h
    have hput : Onward rows (rows.put mark.1 (mark.2.apply row)) := by
      refine .put hrow fun _ => ?_
      cases mark.2 with
      | deactivate => exact ⟨rfl, rfl, fun hactive => by cases hactive⟩
      | ran now => exact ⟨rfl, rfl, id⟩
    refine ⟨hput.trans honward, fun j row' hj => ?_⟩
    obtain ⟨other, hother⟩ := Option.isSome_iff_exists.1 (hknown j row' hj)
    exact isSome_of_put hrow hother

/-- What was known stays known. -/
theorem Phase.Ok.mono {phase : Phase} (h : phase.Ok s) (hids : ∀ id ∈ s.ids, id ∈ s'.ids)
    (hstays : ∀ id row, s.searches.row id = some row → (email row).isSome →
      ∃ row', s'.searches.row id = some row' ∧ row'.tenantId = row.tenantId ∧
        email row' = email row)
    (hconsents : ∀ c ∈ s.consents, c ∈ s'.consents)
    (hfree : ∀ row, phase = .signingUp row →
      s'.searches.row row.id = none ∧ row.id ∉ s'.confirmed) : phase.Ok s' := by
  cases phase with
  | signingUp row =>
    obtain ⟨hid, -, hactive, -⟩ := h
    obtain ⟨hnone, hnot⟩ := hfree row rfl
    exact ⟨hids _ hid, hnone, hactive, hnot⟩
  | activating id tenantId address =>
    obtain ⟨row, hrow, htenant, hemail⟩ := h
    obtain ⟨row', hrow', htenant', hemail'⟩ := hstays id row hrow (hemail ▸ rfl)
    exact ⟨row', hrow', htenant'.trans htenant, hemail'.trans hemail⟩
  | sweeping instant todo marks =>
    intro p hp address hemail
    obtain ⟨c, hc, hopted⟩ := h p hp address hemail
    exact ⟨c, hconsents c hc, hopted⟩
  | confirming | unsubscribing => exact trivial

/-- A step that confirms nothing. `t` is the request that goes on, if one does. -/
theorem Inv.next (h : Inv s) (hpermits : Permits s') (hids : ∀ id ∈ s.ids, id ∈ s'.ids)
    (hrows : Onward s.searches s'.searches)
    (hknown : ∀ id row, s'.searches.row id = some row → id ∈ s'.ids)
    (hfree : ∀ u row, s'.requests u = some (.signingUp row) →
      s.requests u = some (.signingUp row) → s'.searches.row row.id = none)
    (hleads : s'.leads = s.leads) (hconsents : s'.consents = s.consents)
    (hrequests : ∀ u phase, s'.requests u = some phase → s.requests u = some phase ∨
      (u = t ∧ phase.Ok s' ∧ ∀ id, phase.signing = some id → id ∉ s.ids))
    (halerts : ∀ p ∈ s'.alerts, p ∈ s.alerts ∨ ∀ address, p.2 = .email address →
      s.OptedIn p.1 address) : Inv s' := by
  have hsame : s'.confirmed = s.confirmed := congrArg (List.map OptIn.searchId) hconsents
  -- Who is signing up was doing so before, or has just drawn a new id.
  have hold : ∀ u id, s'.signing u = some id → s.signing u = some id ∨ (u = t ∧ id ∉ s.ids) := by
    intro u id hu
    obtain ⟨phase, hphase, hsigning⟩ := Option.bind_eq_some_iff.1 hu
    rcases hrequests u phase hphase with hphase | ⟨hu, -, hnew⟩
    · exact .inl (Option.bind_eq_some_iff.2 ⟨phase, hphase, hsigning⟩)
    · exact .inr ⟨hu, hnew id hsigning⟩
  have hin : ∀ u id, s.signing u = some id → id ∈ s.ids := by
    intro u id hu
    obtain ⟨phase, hphase, hsigning⟩ := Option.bind_eq_some_iff.1 hu
    have hok := h.phases u phase hphase
    cases phase with
    | signingUp row =>
      cases hsigning
      exact hok.1
    | _ => cases hsigning
  refine ⟨hpermits, hknown, fun id row hrow hemail hactive => ?_, ?_, ?_, fun c hc => ?_,
    fun u phase hphase => ?_, fun u u' id hu hu' => ?_, fun p hp address hemail => ?_⟩
  · -- An active row was active before, or this step has confirmed it.
    obtain ⟨old, hold, hemail', hactive'⟩ := hrows.active id row hrow hemail hactive
    exact hsame ▸ h.active id old hold hemail' hactive'
  · rw [hleads, hconsents]
    exact h.leads
  · exact hsame ▸ h.once
  · obtain ⟨row, hrow, htenant, hemail⟩ := h.about c (hconsents ▸ hc)
    obtain ⟨row', hrow', htenant', hemail'⟩ := hrows.stays _ row hrow (hemail ▸ rfl)
    exact ⟨row', hrow', htenant'.trans htenant, hemail'.trans hemail⟩
  · rcases hrequests u phase hphase with hphase' | ⟨-, hok, -⟩
    · -- The other requests keep their phase: nothing they have read changed under them.
      refine (h.phases u phase hphase').mono hids hrows.stays (fun c hc => hconsents ▸ hc) ?_
      rintro row rfl
      exact ⟨hfree u row hphase hphase', hsame ▸ (h.phases u _ hphase').2.2.2⟩
    · exact hok
  · -- Two signups of one id: the new one's id is fresh, so they are the same.
    rcases hold u id hu with hu | ⟨rfl, hnew⟩
    · rcases hold u' id hu' with hu' | ⟨-, hnew⟩
      · exact h.signing u u' id hu hu'
      · exact absurd (hin u id hu) hnew
    · rcases hold u' id hu' with hu' | ⟨rfl, -⟩
      · exact absurd (hin u' id hu') hnew
      · rfl
  · rw [State.OptedIn, hconsents]
    rcases halerts p hp with hp | hnew
    · exact h.alerts p hp address hemail
    · exact hnew address hemail

/-- A step of one request that writes no row. -/
theorem Inv.request (h : Inv s) {phase : Option Phase} (hpermits : Permits s')
    (hids : ∀ id ∈ s.ids, id ∈ s'.ids) (hsearches : s'.searches = s.searches)
    (hleads : s'.leads = s.leads) (hconsents : s'.consents = s.consents)
    (hrequests : s'.requests = Function.update s.requests t phase)
    (hnew : ∀ p, phase = some p → p.Ok s' ∧ ∀ id, p.signing = some id → id ∉ s.ids)
    (halerts : ∀ p ∈ s'.alerts, p ∈ s.alerts ∨ ∀ address, p.2 = .email address →
      s.OptedIn p.1 address) : Inv s' := by
  refine h.next (t := t) hpermits hids (hsearches ▸ .refl _) ?_ ?_ hleads hconsents ?_ halerts
  · rw [hsearches]
    exact fun id row hrow => hids id (h.known id row hrow)
  · intro u row _ hu
    rw [hsearches]
    exact (h.phases u _ hu).2.1
  · intro u p hu
    rw [hrequests] at hu
    rcases Machine.update_cases hu with ⟨rfl, heq⟩ | ⟨-, hold⟩
    · exact .inr ⟨rfl, hnew p heq⟩
    · exact .inl hold

/-- A new id has no row. -/
theorem row_of_new (h : Inv s) (hid : id ∉ s.ids) : s.searches.row id = none := by
  cases hrow : s.searches.row id with
  | none => rfl
  | some row => exact absurd (h.known id row hrow) hid

theorem not_confirmed (h : Inv s) (hid : id ∉ s.ids) : id ∉ s.confirmed := by
  intro hmem
  obtain ⟨c, hc, rfl⟩ := List.mem_map.1 hmem
  obtain ⟨row, hrow, -⟩ := h.about c hc
  exact hid (h.known _ row hrow)

/-- A signup makes a code only. -/
theorem Inv.signup (h : Inv s) {code id tenantId : Nat} {data : SignupIn} {locale : String}
    {now : DateTime} (hst : s.step valid (.signup t code id tenantId data locale now) = some s') :
    Inv s' := by
  obtain ⟨hnew, hst⟩ := Option.ite_none_left_eq_some.1 hst
  obtain ⟨-, hid⟩ := not_or.1 hnew
  obtain ⟨row, hrow, rfl⟩ := Option.map_eq_some_iff.1 hst
  obtain ⟨-, hrow⟩ := Option.ite_none_left_eq_some.1 hrow
  cases hrow
  have hnot := not_confirmed h hid
  have hfree := row_of_new h hid
  refine h.request (t := t) ?_ (fun j hj => List.mem_cons_of_mem _ hj) rfl rfl rfl rfl ?_
    (fun p hp => .inl hp)
  · exact h.permits.mint hid (fun j => List.mem_cons) rfl (held_of_request rfl) rfl hnot
  · intro p hp
    cases hp
    refine ⟨⟨List.mem_cons_self, hfree, rfl, hnot⟩, fun j hj => ?_⟩
    cases hj
    exact hid

theorem Inv.read (h : Inv s) (hst : s.step valid (.read t) = some s') : Inv s' := by
  dsimp only [State.step] at hst
  split at hst
  · next tenantId id hphase =>
    obtain ⟨row, hrow, hst⟩ := Option.bind_eq_some_iff.1 hst
    obtain ⟨address, hemail, rfl⟩ := Option.map_eq_some_iff.1 hst
    obtain ⟨hrow, -⟩ := Option.filter_eq_some_iff.1 hrow
    have hheld : s.held t = some id := by
      rw [State.held, hphase]
      rfl
    refine h.request (t := t) ?_ (fun j hj => hj) rfl rfl rfl rfl ?_ (fun p hp => .inl hp)
    · refine h.permits.weaken (fun j hj => hj) (fun code j hc => hc) (fun u j hu => ?_) rfl
      rcases bind_update hu with ⟨rfl, hnew⟩ | ⟨-, hold⟩
      · split at hnew
        · cases hnew
        · cases hnew
          exact hheld
      · exact hold
    · intro p hp
      split at hp
      · cases hp
      · cases hp
        exact ⟨⟨row, hrow, rfl, hemail⟩, fun j hj => by cases hj⟩
  · cases hst

/-- An alert goes to an active search. -/
theorem Inv.alert (h : Inv s) {found : Bool} {now : DateTime}
    (hst : s.step valid (.alert t found now) = some s') : Inv s' := by
  dsimp only [State.step] at hst
  split at hst
  · next instant id row todo marks hphase =>
    -- The sweep read its rows while they were active, so their owners had opted in.
    have htodo : ∀ p ∈ (id, row) :: todo, ∀ address, email p.2 = some address →
        s.OptedIn p.1 address := h.phases t _ hphase
    have hpermits : ∀ marks, Permits (s.request t (some (.sweeping instant todo marks))) := fun _ =>
      h.permits.weaken (fun j hj => hj) (fun code j hc => hc) (held_of_request rfl) rfl
    split at hst
    · cases hst
      refine h.request (t := t) (hpermits _) (fun j hj => hj) rfl rfl rfl rfl ?_
        (fun p hp => .inl hp)
      intro p hp
      cases hp
      exact ⟨fun q hq => htodo q (List.mem_cons_of_mem _ hq), fun j hj => by cases hj⟩
    · cases hst
      refine h.request (t := t) ?_ (fun j hj => hj) rfl rfl rfl rfl ?_ ?_
      · exact h.permits.weaken (fun j hj => hj) (fun code j hc => hc) (held_of_request rfl) rfl
      · intro p hp
        cases hp
        exact ⟨fun q hq => htodo q (List.mem_cons_of_mem _ hq), fun j hj => by cases hj⟩
      · intro p hp
        dsimp only at hp
        split at hp
        · rcases List.mem_cons.1 hp with rfl | hp
          · refine .inr fun address howner => htodo (id, row) List.mem_cons_self address ?_
            have howner : row.owner = .email address := howner
            rw [email, howner]
          · exact .inl hp
        · exact .inl hp
  · cases hst

/-- A commit or a write that confirms nothing. -/
theorem Inv.write (h : Inv s) {searches : Rows Uuid SavedSearch} {requests : Nat → Option Phase}
    (hrows : Onward s.searches searches)
    (hknown : ∀ id row, searches.row id = some row → (s.searches.row id).isSome)
    (hrequests : ∀ u phase, requests u = some phase → s.requests u = some phase) :
    Inv { s with searches, requests } := by
  have hids : ∀ id row, searches.row id = some row → id ∈ s.ids := by
    intro id row hrow
    obtain ⟨old, hold⟩ := Option.isSome_iff_exists.1 (hknown id row hrow)
    exact h.known id old hold
  refine h.next (t := 0) ?_ (fun j hj => hj) hrows hids (fun u row _ hu => ?_) rfl rfl
    (fun u phase hu => .inl (hrequests u phase hu)) (fun p hp => .inl hp)
  · refine h.permits.weaken (fun j hj => hj) (fun code j hc => hc) (fun u j hu => ?_) rfl
    obtain ⟨phase, hphase, hheld⟩ := Option.bind_eq_some_iff.1 hu
    exact Option.bind_eq_some_iff.2 ⟨phase, hrequests u phase hphase, hheld⟩
  · cases hrow : searches.row row.id with
    | none => rfl
    | some other =>
      obtain ⟨old, hold⟩ := Option.isSome_iff_exists.1 (hknown _ other hrow)
      cases (h.phases u _ hu).2.1.symm.trans hold

theorem requests_of_none {requests : Nat → Option Phase} (u : Nat) (phase : Phase)
    (h : Function.update requests t none u = some phase) : requests u = some phase :=
  (Machine.old_of_update h (Option.some_ne_none phase).symm).2

/-- The row of a signup, which is not active yet. -/
theorem Inv.commitSignup (h : Inv s) {row : SavedSearch}
    (hphase : s.requests t = some (.signingUp row)) :
    Inv { s.request t none with searches := s.searches.put row.id row } := by
  obtain ⟨hid, hnone, hactive, -⟩ := h.phases t _ hphase
  have hsigning : s.signing t = some row.id := by
    rw [State.signing, hphase]
    rfl
  refine h.next (t := t) ?_ (fun j hj => hj) (.insert hnone fun _ => hactive) ?_ ?_ rfl rfl
    (fun u phase hu => .inl (requests_of_none u phase hu)) (fun p hp => .inl hp)
  · exact h.permits.weaken (fun j hj => hj) (fun code j hc => hc) (held_of_request rfl) rfl
  · intro j other hother
    rcases Rows.row_put hother with ⟨rfl, -⟩ | ⟨-, hold⟩
    · exact hid
    · exact h.known j other hold
  · intro u other hu hold
    have hu : u ≠ t ∧ s.requests u = some (.signingUp other) :=
      Machine.old_of_update hu (Option.some_ne_none _).symm
    have hne : other.id ≠ row.id := fun heq => hu.1 <| by
      refine h.signing u t row.id ?_ hsigning
      rw [State.signing, hold, ← heq]
      rfl
    exact (Rows.row_put_of_ne _ _ hne).trans (h.phases u _ hold).2.1

/-- The confirmation: the only one of its search. -/
theorem Inv.commitActivation (h : Inv s) {id tenantId : Nat} {address : String}
    (hphase : s.requests t = some (.activating id tenantId address))
    (hst : s.commit t (.activating id tenantId address) = some s') : Inv s' := by
  obtain ⟨searches, hupdate, rfl⟩ := Option.map_eq_some_iff.1 hst
  obtain ⟨row, hrow, rfl⟩ := update_eq_some hupdate
  -- The request has consumed the code, and so holds the right to activate.
  have hheld : s.held t = some id := by
    rw [State.held, hphase]
    rfl
  obtain ⟨hid, hnot⟩ := h.permits.held t id hheld
  obtain ⟨row', hrow', htenant, hemail⟩ := h.phases t _ hphase
  cases hrow.symm.trans hrow'
  have hstays : ∀ j other, s.searches.row j = some other → (email other).isSome →
      ∃ other', (s.searches.put id { row with isActive := true }).row j = some other' ∧
        other'.tenantId = other.tenantId ∧ email other' = email other := by
    intro j other hother _
    -- Activating a row changes neither its tenant nor its address.
    by_cases hj : j = id
    · subst hj
      cases hrow.symm.trans hother
      exact ⟨_, Rows.row_put_self .., rfl, rfl⟩
    · exact ⟨other, (Rows.row_put_of_ne _ _ hj).trans hother, rfl, rfl⟩
  refine ⟨h.permits.use hheld rfl rfl rfl rfl rfl, fun j other hother => ?_,
    fun j other hother hsome hactive => ?_, congrArg (_ :: ·) h.leads,
    List.nodup_cons.2 ⟨hnot, h.once⟩, fun c hc => ?_, fun u phase hu => ?_,
    fun u u' j hu hu' => ?_, fun p hp address' howner => ?_⟩
  · obtain ⟨old, hold⟩ := Option.isSome_iff_exists.1 (isSome_of_put hrow hother)
    exact h.known j old hold
  · rcases Rows.row_put hother with ⟨rfl, -⟩ | ⟨-, hold⟩
    · exact List.mem_cons_self
    · exact List.mem_cons_of_mem _ (h.active j other hold hsome hactive)
  · rcases List.mem_cons.1 hc with rfl | hc
    · exact ⟨_, Rows.row_put_self .., htenant, hemail⟩
    · obtain ⟨other, hother, htenant', hemail'⟩ := h.about c hc
      obtain ⟨other', hother', htenant'', hemail''⟩ := hstays _ other hother (hemail' ▸ rfl)
      exact ⟨other', hother', htenant''.trans htenant', hemail''.trans hemail'⟩
  · have hold := requests_of_none u phase hu
    refine (h.phases u phase hold).mono (fun j hj => hj) hstays
      (fun c hc => List.mem_cons_of_mem _ hc) ?_
    rintro other rfl
    obtain ⟨-, hnone, -, hnot'⟩ := h.phases u _ hold
    -- A signup under way has no row yet, and this row is stored.
    have hne : other.id ≠ id := fun heq => by
      rw [heq, hrow] at hnone
      cases hnone
    exact ⟨(Rows.row_put_of_ne _ _ hne).trans hnone, fun hmem =>
      (List.mem_cons.1 hmem).elim hne hnot'⟩
  · have hold : ∀ v, (s.request t none).signing v = some j → s.signing v = some j := by
      intro v hv
      rcases bind_update hv with ⟨-, hnew⟩ | ⟨-, hold⟩
      · cases hnew
      · exact hold
    exact h.signing u u' j (hold u hu) (hold u' hu')
  · obtain ⟨c, hc, hopted⟩ := h.alerts p hp address' howner
    exact ⟨c, List.mem_cons_of_mem _ hc, hopted⟩

theorem onward_unsubscribe {row : SavedSearch} (hrow : s.searches.row id = some row) :
    Onward s.searches (s.searches.put id { row with isActive := false }) :=
  .put hrow fun _ => ⟨rfl, rfl, fun hactive => by cases hactive⟩

theorem Inv.commit (h : Inv s) (hst : s.step valid (.commit t) = some s') : Inv s' := by
  obtain ⟨phase, hphase, hst⟩ := Option.bind_eq_some_iff.1 hst
  cases phase with
  | signingUp row =>
    cases hst
    exact h.commitSignup hphase
  | confirming => cases hst
  | activating id tenantId address => exact h.commitActivation hphase hst
  | unsubscribing id =>
    obtain ⟨searches, hupdate, rfl⟩ := Option.map_eq_some_iff.1 hst
    obtain ⟨row, hrow, rfl⟩ := update_eq_some hupdate
    exact h.write (onward_unsubscribe hrow) (fun j other hother => isSome_of_put hrow hother)
      requests_of_none
  | sweeping instant todo marks =>
    cases todo with
    | nil =>
      obtain ⟨searches, hmarks, rfl⟩ := Option.map_eq_some_iff.1 hst
      obtain ⟨honward, hknown⟩ := onward_markAll hmarks
      exact h.write honward hknown requests_of_none
    | cons p todo => cases hst

theorem Inv.create (h : Inv s) {id tenantId userId : Nat} {row : SavedSearch}
    (hst : s.step valid (.create id tenantId userId row) = some s') : Inv s' := by
  obtain ⟨hnew, hst⟩ := Option.ite_none_left_eq_some.1 hst
  cases hst
  have hid := (not_or.1 hnew).1
  refine h.next (t := 0) ?_ (fun j hj => List.mem_cons_of_mem _ hj)
    (.insert (row_of_new h hid) fun hsome => by cases hsome) ?_ ?_ rfl rfl
    (fun u phase hu => .inl hu) (fun p hp => .inl hp)
  · exact h.permits.weaken (fun j hj => List.mem_cons_of_mem _ hj) (fun code j hc => hc)
      (fun u j hu => hu) rfl
  · intro j other hother
    rcases Rows.row_put hother with ⟨rfl, -⟩ | ⟨-, hold⟩
    · exact List.mem_cons_self
    · exact List.mem_cons_of_mem _ (h.known j other hold)
  · intro u other _ hu
    obtain ⟨hmem, hfree, -⟩ := h.phases u _ hu
    have hne : other.id ≠ id := fun heq => hid (heq ▸ hmem)
    exact (Rows.row_put_of_ne _ _ hne).trans hfree

/-- One step keeps the invariant. -/
theorem Inv.step (h : Inv s) {l : Label} (hst : s.step valid l = some s') : Inv s' := by
  cases l with
  | signup t code id tenantId data locale now => exact h.signup hst
  | expire code =>
    cases hst
    refine h.next (t := 0) ?_ (fun j hj => hj) (.refl _) h.known (fun u row _ hu => ?_) rfl rfl
      (fun u phase hu => .inl hu) (fun p hp => .inl hp)
    · -- An expired code permits nothing; no code is made.
      exact h.permits.weaken (fun j hj => hj)
        (fun c j hc => (Machine.old_of_update hc (Option.some_ne_none j).symm).2)
        (fun u j hu => hu) rfl
    · exact (h.phases u _ hu).2.1
  | confirm t tenantId code =>
    obtain ⟨-, hst⟩ := Option.ite_none_left_eq_some.1 hst
    obtain ⟨id, hcode, rfl⟩ := Option.map_eq_some_iff.1 hst
    -- Consuming the code is one step, so nobody else takes it.
    refine h.request (t := t) (h.permits.take hcode rfl rfl rfl rfl) (fun j hj => hj) rfl rfl rfl
      rfl ?_ (fun p hp => .inl hp)
    intro p hp
    cases hp
    exact ⟨trivial, fun j hj => by cases hj⟩
  | read t => exact h.read hst
  | unsubscribe t tenantId id =>
    obtain ⟨-, hst⟩ := Option.ite_none_left_eq_some.1 hst
    obtain ⟨row, -, rfl⟩ := Option.map_eq_some_iff.1 hst
    refine h.request (t := t) ?_ (fun j hj => hj) rfl rfl rfl rfl ?_ (fun p hp => .inl hp)
    · exact h.permits.weaken (fun j hj => hj) (fun code j hc => hc) (held_of_request rfl) rfl
    · intro p hp
      cases hp
      exact ⟨trivial, fun j hj => by cases hj⟩
  | sweep t tenantId frequencies =>
    obtain ⟨-, hst⟩ := Option.ite_none_left_eq_some.1 hst
    cases hst
    refine h.request (t := t) ?_ (fun j hj => hj) rfl rfl rfl rfl ?_ (fun p hp => .inl hp)
    · exact h.permits.weaken (fun j hj => hj) (fun code j hc => hc) (held_of_request rfl) rfl
    · intro p hp
      cases hp
      refine ⟨fun q hq address hemail => ?_, fun j hj => by cases hj⟩
      -- The sweep reads active rows, and an active row has its consent.
      obtain ⟨hrow, hdue⟩ := mem_entries.1 hq
      have hactive := (Bool.and_eq_true_iff.1 (Bool.and_eq_true_iff.1 hdue).1).2
      exact h.optedIn hrow hemail hactive
  | alert t found now => exact h.alert hst
  | commit t => exact h.commit hst
  | abort t =>
    cases hst
    refine h.request (t := t) ?_ (fun j hj => hj) rfl rfl rfl rfl (fun p hp => by cases hp)
      (fun p hp => .inl hp)
    exact h.permits.weaken (fun j hj => hj) (fun code j hc => hc) (held_of_request rfl) rfl
  | create id tenantId userId row => exact h.create hst
  | edit id tenantId userId patch =>
    obtain ⟨row, hrow, rfl⟩ := Option.map_eq_some_iff.1 hst
    obtain ⟨hrow, howned⟩ := Option.filter_eq_some_iff.1 hrow
    exact h.write (.edit hrow howned) (fun j other hother => isSome_of_put hrow hother)
      (fun u phase hu => hu)
  | delete id tenantId userId =>
    obtain ⟨row, hrow, rfl⟩ := Option.map_eq_some_iff.1 hst
    obtain ⟨hrow, howned⟩ := Option.filter_eq_some_iff.1 hrow
    -- A deleted row is an account's own, not one of a mail address.
    exact h.write (.delete hrow (email_of_ownedBy howned))
      (fun j other hother => (Rows.row_delete hother).2 ▸ rfl) (fun u phase hu => hu)

theorem inductive_inv : (machine valid).Inductive (fun _ _ => True) Inv where
  init s hs := by
    cases hs
    refine ⟨⟨?_, ?_, ?_, ?_, ?_⟩, ?_, ?_, rfl, List.nodup_nil, ?_, ?_, ?_, ?_⟩
    · exact fun code id h => by cases h
    · exact fun t id h => by cases h
    · exact fun code code' id h => by cases h
    · exact fun t t' id h => by cases h
    · exact fun code t id h => by cases h
    · exact fun id row h => by cases h
    · exact fun id row h => by cases h
    · exact fun c h => by cases h
    · exact fun t phase h => by cases h
    · exact fun t t' id h => by cases h
    · exact fun p h => by cases h
  step _ _ _ h _ hst := h.step hst

/-- In every reachable state. -/
theorem inv (hs : (machine valid).Reachable s) : Inv s := inductive_inv.always hs

/-- In every state, the alerts for a search without an account went to an address that confirmed
it; a search is confirmed once, with one lead and one consent record, and an active one has its
record. -/
theorem alerts_opted_in (hs : (machine valid).Reachable s) :
    (∀ id address, (id, .email address) ∈ s.alerts → s.OptedIn id address) ∧
    (∀ id row address, s.searches.row id = some row → row.owner = .email address →
      row.isActive = true → (⟨row.tenantId, address, id⟩ : OptIn) ∈ s.consents) ∧
    (s.consents.map OptIn.searchId).Nodup ∧ s.leads = s.consents := by
  have h := inv hs
  refine ⟨fun id address hmem => h.alerts _ hmem address rfl,
    fun id row address hrow howner hactive => ?_, h.once, h.leads⟩
  have hemail : email row = some address := by
    rw [email, howner]
  obtain ⟨c, hc, rfl, rfl⟩ := h.optedIn hrow hemail hactive
  obtain ⟨row', hrow', htenant, -⟩ := h.about c hc
  cases hrow.symm.trans hrow'
  exact htenant ▸ hc

/-- A visitor signs up for daily digests. -/
def sampleSignup : SignupIn := ⟨"visitor@example.com", [], none, .daily, ""⟩

/-- From the form to the first alert. -/
def signupToAlert : List Label :=
  [.signup 0 100 5 1 sampleSignup "fr" 0, .commit 0, .confirm 0 1 100, .read 0, .commit 0,
    .sweep 0 1 [.daily], .alert 0 true 10, .commit 0]

theorem alerts_opted_in_signup : ∃ s, (machine fun _ => true).Reachable s ∧
    (5, .email "visitor@example.com") ∈ s.alerts ∧ s.OptedIn 5 "visitor@example.com" := by
  obtain ⟨s, hs, hp⟩ := Machine.exists_reachable_of_run (M := machine fun _ => true) (s := .start)
    signupToAlert (fun s => (5, SearchOwner.email "visitor@example.com") ∈ s.alerts) rfl
    (by decide)
  have hmem := of_decide_eq_true hp
  exact ⟨s, hs, hmem, (alerts_opted_in hs).1 5 _ hmem⟩

/-! ### Opting out -/

/-- A row is turned on by the request that holds its code only. -/
theorem onward_of_step (h : Inv s) {l : Label} (hst : s.step valid l = some s') :
    (s'.consents = s.consents ∧ Onward s.searches s'.searches) ∨
    ∃ t j row optIn, s.held t = some j ∧ s.searches.row j = some row ∧
      s'.consents = optIn :: s.consents ∧
      s'.searches = s.searches.put j { row with isActive := true } := by
  cases l with
  | signup t code id tenantId data locale now =>
    obtain ⟨-, hst⟩ := Option.ite_none_left_eq_some.1 hst
    obtain ⟨row, -, rfl⟩ := Option.map_eq_some_iff.1 hst
    exact .inl ⟨rfl, .refl _⟩
  | expire code =>
    cases hst
    exact .inl ⟨rfl, .refl _⟩
  | confirm t tenantId code =>
    obtain ⟨-, hst⟩ := Option.ite_none_left_eq_some.1 hst
    obtain ⟨j, -, rfl⟩ := Option.map_eq_some_iff.1 hst
    exact .inl ⟨rfl, .refl _⟩
  | read t =>
    dsimp only [State.step] at hst
    split at hst
    · obtain ⟨row, -, hst⟩ := Option.bind_eq_some_iff.1 hst
      obtain ⟨address, -, rfl⟩ := Option.map_eq_some_iff.1 hst
      exact .inl ⟨rfl, .refl _⟩
    · cases hst
  | unsubscribe t tenantId id =>
    obtain ⟨-, hst⟩ := Option.ite_none_left_eq_some.1 hst
    obtain ⟨row, -, rfl⟩ := Option.map_eq_some_iff.1 hst
    exact .inl ⟨rfl, .refl _⟩
  | sweep t tenantId frequencies =>
    obtain ⟨-, hst⟩ := Option.ite_none_left_eq_some.1 hst
    cases hst
    exact .inl ⟨rfl, .refl _⟩
  | alert t found now =>
    dsimp only [State.step] at hst
    split at hst
    · split at hst
      all_goals
        cases hst
        exact .inl ⟨rfl, .refl _⟩
    · cases hst
  | commit t =>
    obtain ⟨phase, hphase, hst⟩ := Option.bind_eq_some_iff.1 hst
    cases phase with
    | signingUp row =>
      cases hst
      obtain ⟨-, hnone, hoff, -⟩ := h.phases t _ hphase
      -- A new row starts inactive.
      exact .inl ⟨rfl, .insert hnone fun _ => hoff⟩
    | confirming => cases hst
    | activating j tenantId address =>
      obtain ⟨searches, hupdate, rfl⟩ := Option.map_eq_some_iff.1 hst
      obtain ⟨row, hrow, rfl⟩ := update_eq_some hupdate
      -- The one step that activates a row, by a request that holds its code.
      refine .inr ⟨t, j, row, _, ?_, hrow, rfl, rfl⟩
      rw [State.held, hphase]
      rfl
    | unsubscribing j =>
      obtain ⟨searches, hupdate, rfl⟩ := Option.map_eq_some_iff.1 hst
      obtain ⟨row, hrow, rfl⟩ := update_eq_some hupdate
      exact .inl ⟨rfl, onward_unsubscribe hrow⟩
    | sweeping instant todo marks =>
      cases todo with
      | nil =>
        obtain ⟨searches, hmarks, rfl⟩ := Option.map_eq_some_iff.1 hst
        -- The marks of a sweep touch the time of the last run alone.
        exact .inl ⟨rfl, (onward_markAll hmarks).1⟩
      | cons p todo => cases hst
  | abort t =>
    cases hst
    exact .inl ⟨rfl, .refl _⟩
  | create id tenantId userId row =>
    obtain ⟨hnew, hst⟩ := Option.ite_none_left_eq_some.1 hst
    cases hst
    have hnone := row_of_new h (not_or.1 hnew).1
    exact .inl ⟨rfl, .insert hnone fun hsome => by cases hsome⟩
  | edit id tenantId userId patch =>
    obtain ⟨row, hrow, rfl⟩ := Option.map_eq_some_iff.1 hst
    obtain ⟨hrow, howned⟩ := Option.filter_eq_some_iff.1 hrow
    exact .inl ⟨rfl, .edit hrow howned⟩
  | delete id tenantId userId =>
    obtain ⟨row, hrow, rfl⟩ := Option.map_eq_some_iff.1 hst
    obtain ⟨hrow, howned⟩ := Option.filter_eq_some_iff.1 hrow
    exact .inl ⟨rfl, .delete hrow (email_of_ownedBy howned)⟩

/-- The search was confirmed and is off. -/
structure Off (id : Uuid) (address : String) (s : State) : Prop where
  confirmed : id ∈ s.confirmed
  row : ∃ row, s.searches.row id = some row ∧ email row = some address ∧ row.isActive = false

/-- An address that is off stays off, unless a signup of it is confirmed anew. -/
theorem Off.step {address : String} (hoff : Off id address s) (h : Inv s) {l : Label}
    (hst : s.step valid l = some s') : Off id address s' := by
  obtain ⟨row, hrow, hemail, hactive⟩ := hoff.row
  rcases onward_of_step h hst with ⟨hconsents, honward⟩ |
    ⟨t, j, old, optIn, hheld, -, hconsents, hsearches⟩
  · refine ⟨?_, ?_⟩
    · rw [State.confirmed, hconsents]
      exact hoff.confirmed
    · obtain ⟨row', hrow', -, hemail'⟩ := honward.stays id row hrow (hemail ▸ rfl)
      refine ⟨row', hrow', hemail'.trans hemail, Bool.eq_false_iff.2 fun hon => ?_⟩
      obtain ⟨row₀, hrow₀, -, hon₀⟩ :=
        honward.active id row' hrow' (hemail' ▸ hemail ▸ rfl) hon
      cases hrow.symm.trans hrow₀
      cases hactive.symm.trans hon₀
  · have hne : id ≠ j := by
      rintro rfl
      exact (h.permits.held t id hheld).2 hoff.confirmed
    refine ⟨?_, row, ?_, hemail, hactive⟩
    · rw [State.confirmed, hconsents]
      exact List.mem_cons_of_mem _ hoff.confirmed
    · rw [hsearches]
      exact (Rows.row_put_of_ne _ _ hne).trans hrow

/-- The searches that a sweep has yet to look at. -/
def Phase.todo : Phase → List Uuid
  | .sweeping _ todo _ => todo.map Prod.fst
  | _ => []

/-- No sweep is about to send an alert for the search. -/
def Quiet (id : Uuid) (s : State) : Prop := ∀ t phase, s.requests t = some phase → id ∉ phase.todo

theorem Quiet.request (h : Quiet id s) {phase : Option Phase}
    (hrequests : s'.requests = Function.update s.requests t phase)
    (hphase : id ∉ phase.elim [] Phase.todo) : Quiet id s' := by
  intro u p hu
  rw [hrequests] at hu
  rcases Machine.update_cases hu with ⟨-, rfl⟩ | ⟨-, hold⟩
  · exact hphase
  · exact h u p hold

theorem Quiet.commit (h : Quiet id s) (hst : s.step valid (.commit t) = some s') :
    Quiet id s' ∧ s'.alerts = s.alerts := by
  obtain ⟨phase, -, hst⟩ := Option.bind_eq_some_iff.1 hst
  cases phase with
  | signingUp row =>
    cases hst
    exact ⟨h.request rfl List.not_mem_nil, rfl⟩
  | confirming => cases hst
  | activating | unsubscribing =>
    obtain ⟨searches, -, rfl⟩ := Option.map_eq_some_iff.1 hst
    exact ⟨h.request rfl List.not_mem_nil, rfl⟩
  | sweeping instant todo marks =>
    cases todo with
    | nil =>
      obtain ⟨searches, -, rfl⟩ := Option.map_eq_some_iff.1 hst
      exact ⟨h.request rfl List.not_mem_nil, rfl⟩
    | cons p todo => cases hst

/-- Alerts of other searches. -/
theorem Quiet.alert (h : Quiet id s) {found : Bool} {now : DateTime}
    (hst : s.step valid (.alert t found now) = some s') :
    Quiet id s' ∧ s'.alerts.filter (·.1 = id) = s.alerts.filter (·.1 = id) := by
  dsimp only [State.step] at hst
  split at hst
  · next instant j row todo marks hphase =>
    have hnot : id ∉ j :: todo.map Prod.fst := h t _ hphase
    obtain ⟨hne, hrest⟩ := not_or.1 (List.mem_cons.not.1 hnot)
    split at hst
    · cases hst
      exact ⟨h.request rfl hrest, rfl⟩
    · cases hst
      refine ⟨h.request rfl hrest, ?_⟩
      dsimp only
      split
      · exact List.filter_cons_of_neg fun heq => hne (of_decide_eq_true heq).symm
      · rfl
  · cases hst

/-- A sweep does not pick up a search that is off, and alerts for what it picked up. -/
theorem Quiet.step (h : Quiet id s) {address : String} (hoff : Off id address s) {l : Label}
    (hst : s.step valid l = some s') :
    Quiet id s' ∧ s'.alerts.filter (·.1 = id) = s.alerts.filter (·.1 = id) := by
  cases l with
  | signup t code id tenantId data locale now =>
    obtain ⟨-, hst⟩ := Option.ite_none_left_eq_some.1 hst
    obtain ⟨row, -, rfl⟩ := Option.map_eq_some_iff.1 hst
    -- A new signup has a new id, and a row that is off is not affected by it.
    exact ⟨h.request rfl List.not_mem_nil, rfl⟩
  | expire code =>
    cases hst
    exact ⟨h, rfl⟩
  | confirm t tenantId code =>
    obtain ⟨-, hst⟩ := Option.ite_none_left_eq_some.1 hst
    obtain ⟨j, -, rfl⟩ := Option.map_eq_some_iff.1 hst
    exact ⟨h.request rfl List.not_mem_nil, rfl⟩
  | read t =>
    dsimp only [State.step] at hst
    split at hst
    · obtain ⟨row, -, hst⟩ := Option.bind_eq_some_iff.1 hst
      obtain ⟨address, -, rfl⟩ := Option.map_eq_some_iff.1 hst
      refine ⟨h.request rfl ?_, rfl⟩
      split
      all_goals exact List.not_mem_nil
    · cases hst
  | unsubscribe t tenantId id =>
    obtain ⟨-, hst⟩ := Option.ite_none_left_eq_some.1 hst
    obtain ⟨row, -, rfl⟩ := Option.map_eq_some_iff.1 hst
    exact ⟨h.request rfl List.not_mem_nil, rfl⟩
  | sweep t tenantId frequencies =>
    obtain ⟨-, hst⟩ := Option.ite_none_left_eq_some.1 hst
    cases hst
    refine ⟨h.request rfl fun hmem => ?_, rfl⟩
    obtain ⟨q, hq, rfl⟩ := List.mem_map.1 hmem
    obtain ⟨hrow, hdue⟩ := mem_entries.1 hq
    obtain ⟨row, hrow', -, hactive⟩ := hoff.row
    cases hrow.symm.trans hrow'
    have hactive' := (Bool.and_eq_true_iff.1 (Bool.and_eq_true_iff.1 hdue).1).2
    -- The sweep reads active rows, and this one is not.
    cases hactive.symm.trans hactive'
  | alert t found now => exact h.alert hst
  | commit t =>
    -- A commit switches nothing on here: nobody holds a code of this row.
    obtain ⟨hquiet, halerts⟩ := h.commit hst
    exact ⟨hquiet, congrArg _ halerts⟩
  | abort t =>
    cases hst
    exact ⟨h.request rfl List.not_mem_nil, rfl⟩
  | create id tenantId userId row =>
    obtain ⟨-, hst⟩ := Option.ite_none_left_eq_some.1 hst
    cases hst
    exact ⟨h, rfl⟩
  | edit id tenantId userId patch | delete id tenantId userId =>
    obtain ⟨row, -, rfl⟩ := Option.map_eq_some_iff.1 hst
    exact ⟨h, rfl⟩

/-- In every later state. -/
theorem off_later {address : String} (hs : (machine valid).Reachable s) (hoff : Off id address s)
    (hlater : ((machine valid).startingAt s).Reachable s') : Off id address s' := by
  induction hlater with
  | init hs' =>
    cases hs'
    exact hoff
  | step hr _ hst ih => exact ih.step (inv (hs.of_startingAt hr)) hst

/-- And no alert is sent in between. -/
theorem quiet_later {address : String} (hs : (machine valid).Reachable s)
    (hoff : Off id address s) (hquiet : Quiet id s)
    (hlater : ((machine valid).startingAt s).Reachable s') :
    Quiet id s' ∧ s'.alerts.filter (·.1 = id) = s.alerts.filter (·.1 = id) := by
  induction hlater with
  | init hs' =>
    cases hs'
    exact ⟨hquiet, rfl⟩
  | step hr _ hst ih =>
    obtain ⟨hquiet', halerts⟩ := ih
    obtain ⟨hquiet'', halerts'⟩ := hquiet'.step (off_later hs hoff hr) hst
    exact ⟨hquiet'', halerts'.trans halerts⟩

/-- A search that was confirmed and turned off stays in the table and off whatever requests, sweeps
and late confirmations follow, and unless a sweep has it on its list already it gets no alert ever
again. -/
theorem opt_out_final {row : SavedSearch} {address : String} (hs : (machine valid).Reachable s)
    (hconfirmed : id ∈ s.consents.map OptIn.searchId) (hrow : s.searches.row id = some row)
    (howner : row.owner = .email address) (hoff : row.isActive = false)
    (hlater : ((machine valid).startingAt s).Reachable s') :
    (∃ row', s'.searches.row id = some row' ∧ row'.owner = .email address ∧
      row'.isActive = false) ∧
    ((∀ t instant todo marks, s.requests t = some (.sweeping instant todo marks) →
        id ∉ todo.map Prod.fst) →
      s'.alerts.filter (·.1 = id) = s.alerts.filter (·.1 = id)) := by
  have h : Off id address s := ⟨hconfirmed, row, hrow, by rw [email, howner], hoff⟩
  refine ⟨?_, fun hidle => ?_⟩
  · obtain ⟨row', hrow', hemail, hoff'⟩ := (off_later hs h hlater).row
    refine ⟨row', hrow', ?_, hoff'⟩
    cases howner' : row'.owner with
    | email other =>
      rw [email, howner'] at hemail
      exact congrArg _ (Option.some.inj hemail)
    | user userId =>
      rw [email, howner'] at hemail
      cases hemail
  · refine (quiet_later hs h (fun t phase hphase => ?_) hlater).2
    cases phase with
    | sweeping instant todo marks => exact hidle t instant todo marks hphase
    | _ => exact List.not_mem_nil

/-- The link of the first alert was used. -/
def optedOut : State :=
  ((machine fun _ => true).run .start
    (signupToAlert ++ [.unsubscribe 0 1 5, .commit 0])).getD .start

/-- The sweep of the next day. -/
theorem opt_out_final_signup : ∃ s', ((machine fun _ => true).startingAt optedOut).Reachable s' ∧
    (∃ row, s'.searches.row 5 = some row ∧ row.isActive = false) ∧
    s'.alerts.filter (·.1 = 5) = [(5, .email "visitor@example.com")] := by
  have hrun : (machine fun _ => true).run .start
      (signupToAlert ++ [.unsubscribe 0 1 5, .commit 0]) = some optedOut := rfl
  have hs := Machine.Reachable.of_run (.init rfl) hrun
  have hrow : optedOut.searches.row 5 = some {
      id := 5
      tenantId := 1
      owner := .email "visitor@example.com"
      frequency := .daily
      createdAt := 0
      lastRunAt := some 10
      isActive := false } := rfl
  have hidle : ∀ t, optedOut.requests t = none
    | 0 => rfl
    | t + 1 => rfl
  obtain ⟨s', hnext⟩ : ∃ s', ((machine fun _ => true).startingAt optedOut).run optedOut
      [.sweep 0 1 [.daily], .commit 0] = some s' := ⟨_, rfl⟩
  have hlater := Machine.Reachable.of_run (.init rfl) hnext
  obtain ⟨⟨row, hrow', -, hoff⟩, halerts⟩ :=
    opt_out_final hs List.mem_cons_self hrow rfl rfl hlater
  refine ⟨s', hlater, ⟨row, hrow', hoff⟩, halerts fun t instant todo marks hphase => ?_⟩
  cases (hidle t).symm.trans hphase

end Signups

end Favorites

end RealEstate
