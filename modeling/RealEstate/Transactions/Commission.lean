import RealEstate.Common.Money
import RealEstate.Systems.Machine
import RealEstate.Transactions.Deals
import RealEstate.Users.Models

/-!
# Commissions (`modules/transactions/service.py`)

- `MoneyField`, `RateField`: the decimals that the schemas admit.
- `commission_exact`: `commission_amount` rounds once, half up to the cent.
- `setCommission`, and `commissions`: the operations that write a deal, one after the other.
- `commission_in_step`: as long as no edit of a price changes what a percentage comes to, every
  commission agrees with its deal.
-/

namespace RealEstate

namespace Transactions

open RealEstate.Core RealEstate.Common Systems Users

/-! ### The admitted decimals -/

/-- `MoneyField`. -/
def MoneyField : Type :=
  { x : DecimalNumber // 0 < x.toRat ∧ x.toRat ≤ 999999999999 ∧ x.decimalPlaces ≤ 2 }

/-- `RateField`. -/
def RateField : Type :=
  { x : DecimalNumber // 0 ≤ x.toRat ∧ x.toRat ≤ 100 ∧ x.decimalPlaces ≤ 3 }

/-- A price as a number. -/
def MoneyField.toRat (price : MoneyField) : ℚ := price.val.toRat

/-- A rate as a number. -/
def RateField.toRat (rate : RateField) : ℚ := rate.val.toRat

/-- The product has 20 digits at most. -/
theorem product_scaled (price : MoneyField) (rate : RateField) :
    ∃ m : Nat, m < 10 ^ 20 ∧ price.toRat * rate.toRat = m * 10 ^ (-5 : Int) := by
  obtain ⟨x, hx0, hx, hxplaces⟩ := price
  obtain ⟨y, hy0, hy, hyplaces⟩ := rate
  obtain ⟨m, hm⟩ := toRat_of_decimalPlaces hxplaces hx0.le
  obtain ⟨k, hk⟩ := toRat_of_decimalPlaces hyplaces hy0
  have htwo : (10 : ℚ) ^ (-(2 : Nat) : Int) = 1 / 100 := by norm_num
  have hthree : (10 : ℚ) ^ (-(3 : Nat) : Int) = 1 / 1000 := by norm_num
  have hfive : (10 : ℚ) ^ (-5 : Int) = 1 / 100000 := by norm_num
  rw [htwo] at hm
  rw [hthree] at hk
  have hmle : m ≤ 99999999999900 := by
    have hle : (m : ℚ) ≤ 99999999999900 := by linarith
    exact_mod_cast hle
  have hkle : k ≤ 100000 := by
    have hle : (k : ℚ) ≤ 100000 := by linarith
    exact_mod_cast hle
  have hmk : m * k ≤ 99999999999900 * 100000 := Nat.mul_le_mul hmle hkle
  refine ⟨m * k, hmk.trans_lt (by norm_num), ?_⟩
  show x.toRat * y.toRat = _
  rw [hm, hk, hfive, Nat.cast_mul]
  ring

/-- A percentage is no more than the whole. -/
theorem share_bounds (price : MoneyField) (rate : RateField) :
    0 ≤ price.toRat * rate.toRat / 100 ∧ price.toRat * rate.toRat / 100 ≤ price.toRat := by
  have hprice : 0 < price.toRat := price.property.1
  have hrate : 0 ≤ rate.toRat := rate.property.1
  have hrate' : rate.toRat ≤ 100 := rate.property.2.1
  constructor
  · positivity
  · rw [div_le_iff₀ (by norm_num)]
    exact mul_le_mul_of_nonneg_left hrate' hprice.le

/-- The stages of `commission_amount`. -/
theorem commission_stages (price : MoneyField) (rate : RateField) :
    ∃ product share amount,
      defaultContext.mul price.val rate.val = .ok product ∧
      product.toRat = price.toRat * rate.toRat ∧
      defaultContext.div product (.ofInt 100) = .ok share ∧
      share.toRat = price.toRat * rate.toRat / 100 ∧
      commissionAmount price.val rate.val = .ok amount ∧ amount.exponent = -2 ∧
      amount.toRat = cents (price.toRat * rate.toRat / 100) := by
  obtain ⟨m, hm, hproduct⟩ := product_scaled price rate
  -- Two decimals of the price and three of the rate, and two more by the percent.
  have hshare : price.toRat * rate.toRat / 100 = m * 10 ^ (-7 : Int) := by
    rw [hproduct]
    norm_num
    ring
  have hsmall : price.toRat * rate.toRat / 100 < 10 ^ 25 := by
    refine (share_bounds price rate).2.trans_lt (price.property.2.1.trans_lt ?_)
    norm_num
  have hm' : m < 10 ^ 28 := hm.trans (by norm_num)
  -- The product is exact, and so is the quotient: 28 digits hold either.
  have hfive : defaultContext.Fits (price.toRat * rate.toRat) := by
    rw [hproduct]
    exact fits_of_scaled hm' (by decide) (by decide)
  have hseven : defaultContext.Fits (price.toRat * rate.toRat / 100) := by
    rw [hshare]
    exact fits_of_scaled hm' (by decide) (by decide)
  unfold MoneyField.toRat RateField.toRat at *
  exact percentageOf_spec price.property.1.le rate.property.1 hfive hseven hsmall

/-- A price is a whole number of cents. -/
theorem cents_price (price : MoneyField) : cents price.toRat = price.toRat := by
  obtain ⟨m, hm⟩ := toRat_of_decimalPlaces price.property.2.2 price.property.1.le
  have htwo : (10 : ℚ) ^ (-(2 : Nat) : Int) = 1 / 100 := by norm_num
  have hprice : price.toRat = (m : Int) / 100 := by
    rw [MoneyField.toRat, hm, htwo, mul_one_div, Int.cast_natCast]
  rw [hprice, cents_of_int]

/-- **Commissions are rounded once.** `commission_amount` computes the product and its hundredth
exactly, and returns the share rounded half up to the cent: within half a cent of it, between
zero and the price, and no less for a higher price or rate. -/
theorem commission_exact (price : MoneyField) (rate : RateField) :
    ∃ product share amount,
      defaultContext.mul price.val rate.val = .ok product ∧
      product.toRat = price.toRat * rate.toRat ∧
      defaultContext.div product (.ofInt 100) = .ok share ∧
      share.toRat = price.toRat * rate.toRat / 100 ∧
      commissionAmount price.val rate.val = .ok amount ∧ amount.exponent = -2 ∧
      amount.toRat = cents (price.toRat * rate.toRat / 100) ∧
      |amount.toRat - price.toRat * rate.toRat / 100| ≤ 1 / 200 ∧
      0 ≤ amount.toRat ∧ amount.toRat ≤ price.toRat ∧
      ∀ (price' : MoneyField) (rate' : RateField) (amount' : DecimalNumber),
        commissionAmount price'.val rate'.val = .ok amount' →
        price.toRat ≤ price'.toRat → rate.toRat ≤ rate'.toRat →
        amount.toRat ≤ amount'.toRat := by
  obtain ⟨product, share, amount, hmul, hproduct, hdiv, hshare, hamount, hexponent, hcents⟩ :=
    commission_stages price rate
  obtain ⟨hlow, hhigh⟩ := share_bounds price rate
  refine ⟨product, share, amount, hmul, hproduct, hdiv, hshare, hamount, hexponent, hcents,
    ?_, ?_, ?_, ?_⟩
  · rw [hcents]
    exact abs_cents_sub_le _
  · have hzero : cents 0 = 0 := by rw [cents, zero_mul, round_zero, Int.cast_zero, zero_div]
    rw [hcents, ← hzero]
    -- Rounding to cents is monotone, and fixes zero and the price.
    exact cents_mono hlow
  · rw [hcents]
    exact (cents_mono hhigh).trans_eq (cents_price price)
  · intro price' rate' amount' hamount' hprice hrate
    obtain ⟨-, -, _, -, -, -, -, heq, -, hcents'⟩ := commission_stages price' rate'
    cases heq.symm.trans hamount'
    have hprice0 : 0 ≤ price'.toRat := price'.property.1.le
    have hproducts : price.toRat * rate.toRat ≤ price'.toRat * rate'.toRat :=
      mul_le_mul hprice hrate rate.property.1 hprice0
    rw [hcents, hcents']
    exact cents_mono (div_le_div_of_nonneg_right hproducts (by norm_num))

/-! ### The columns -/

/-- A value of a `Numeric` column with so many places, in units of the last one. -/
def column (places : Nat) (x : DecimalNumber) : Int := (x.rescale .halfUp (-places)).coefficient

/-- A price as it is read from its column. -/
def ofCents (n : Int) : DecimalNumber := ⟨n, -2⟩

/-- A rate as it is read from its column. -/
def ofThousandths (n : Int) : DecimalNumber := ⟨n, -3⟩

/-- `MoneyField`, in cents. -/
def MoneyCents (n : Int) : Prop := 0 < n ∧ n ≤ 99999999999900

/-- Bounds are decided by comparison. -/
instance (n : Int) : Decidable (MoneyCents n) := inferInstanceAs (Decidable (_ ∧ _))

/-- `RateField`, in thousandths. -/
def RateThousandths (n : Int) : Prop := 0 ≤ n ∧ n ≤ 100000

/-! ### Operations -/

/-- How a commission is agreed. -/
inductive CommissionBasis where
  | percentage
  | flat
  deriving DecidableEq, Repr

/-- The request to set it. -/
structure CommissionUpdate where
  basis : CommissionBasis
  rate : Option RateField := none
  amount : Option MoneyField := none
  /-- `basis_requires_field`. -/
  basisRequiresField : match basis with
    | .percentage => rate.isSome
    | .flat => amount.isSome

/-- A row of `deals` with its commission: the rate is in thousandths of a percent, the amount in
cents. -/
structure CommissionedDeal extends Deal where
  commissionBasis : Option CommissionBasis := none
  commissionRate : Option Int := none
  commissionAmount : Option Int := none

/-- How an operation fails: an `AppError`, or a trapped signal. -/
inductive Failure where
  | raised (error : AppError)
  | signal (signal : DecimalSignal)

/-- Neither of two calls in a row failed. -/
theorem Failure.bind_eq_ok {α β : Type} {f : α → Except Failure β} {e : Except Failure α} {b : β}
    (h : (e >>= f) = .ok b) : ∃ a, e = .ok a ∧ f a = .ok b := by
  cases e with
  | error => cases h
  | ok a => exact ⟨a, rfl, h⟩

/-- An error of the service. -/
def orRaise {α : Type} : Except AppError α → Except Failure α
  | .ok a => .ok a
  | .error e => .error (.raised e)

/-- A signal of the decimal context. -/
def orSignal {α : Type} : Except DecimalSignal α → Except Failure α
  | .ok a => .ok a
  | .error e => .error (.signal e)

/-- `_require_commission_access`. -/
def requireCommissionAccess (role : Role) : Except AppError Unit :=
  if role = .admin then .ok ()
  else .error ⟨.permissionDenied, "Only an admin can view or set commission figures."⟩

/-- The amount that a percentage comes to, when the price is known. -/
def derivedAmount : Option Int → Option DecimalNumber → Except DecimalSignal (Option Int)
  | some price, some rate => do
    let amount ← commissionAmount (ofCents price) rate
    return some (column 2 amount)
  | _, _ => .ok none

/-- `set_commission`. -/
def setCommission (role : Role) (scope : Option (List Uuid)) (data : CommissionUpdate)
    (deal : CommissionedDeal) : Except Failure CommissionedDeal := do
  orRaise (requireCommissionAccess role)
  orRaise (dealOr404 scope deal.toDeal)
  match data.basis with
  | .percentage =>
    let amount ← orSignal (derivedAmount deal.price (data.rate.map (·.val)))
    return { deal with
      commissionBasis := some .percentage
      commissionRate := data.rate.map fun rate => column 3 rate.val
      commissionAmount := amount }
  | .flat =>
    return { deal with
      commissionBasis := some .flat
      commissionRate := none
      commissionAmount := data.amount.map fun amount => column 2 amount.val }

/-- The deals of a tenant. -/
abbrev Deals := Uuid → Option CommissionedDeal

/-- A write to a deal. -/
inductive Write where
  | createDeal (dealId : Uuid) (new : NewDeal)
  | updateDeal (dealId : Uuid) (boundaries : Boundaries) (scope : Option (List Uuid))
      (patch : DealUpdate)
  | setCommission (dealId : Uuid) (role : Role) (scope : Option (List Uuid))
      (data : CommissionUpdate)
  | transition (dealId : Uuid) (scope : Option (List Uuid)) (now : DateTime)
      (data : DealTransition)

/-- A request that is answered; one that is refused changes nothing. -/
def step (deals : Deals) : Write → Option Deals
  | .createDeal dealId new =>
    if (deals dealId).isNone ∧ ∀ price ∈ new.data.price, MoneyCents price then
      (createDeal new.boundaries new.scope new.actor new.data).toOption.map fun deal =>
        Function.update deals dealId (some { toDeal := deal })
    else none
  | .updateDeal dealId boundaries scope patch =>
    if ∀ price ∈ patch.price.join, MoneyCents price then
      (deals dealId).bind fun row =>
        (updateDeal boundaries scope patch row.toDeal).toOption.join.map fun deal =>
          Function.update deals dealId (some { row with toDeal := deal })
    else none
  | .setCommission dealId role scope data =>
    (deals dealId).bind fun row =>
      (setCommission role scope data row).toOption.map fun row =>
        Function.update deals dealId (some row)
  | .transition dealId scope now data =>
    (deals dealId).bind fun row =>
      (transition scope dealId now data row.toDeal).toOption.map fun (deal, _) =>
        Function.update deals dealId (some { row with toDeal := deal })

/-- The deals of a tenant, from none on. -/
def commissions : Machine Deals Write where
  init deals := deals = fun _ => none
  step := step

/-- A percentage commission agrees with the price and the rate of its deal. -/
structure InStep (row : CommissionedDeal) : Prop where
  derived : row.commissionBasis = some .percentage → ∀ price rate,
    row.price = some price → row.commissionRate = some rate →
    ∃ amount, row.commissionAmount = some amount ∧
      commissionAmount (ofCents price) (ofThousandths rate) = .ok (ofCents amount)
  unpriced : row.commissionBasis = some .percentage → row.price = none →
    row.commissionAmount = none

/-- What the commission of a deal at a rate in its column comes to. -/
def figure (price rate : Option Int) : Except DecimalSignal (Option Int) :=
  derivedAmount price (rate.map ofThousandths)

/-- The request is not an edit of the price that changes what a percentage comes to. -/
def Undisturbed (deals : Deals) : Write → Prop
  | .updateDeal dealId _ _ patch => ∀ row ∈ deals dealId, ∀ price ∈ patch.price,
    row.commissionBasis = some .percentage →
      figure price row.commissionRate = figure row.price row.commissionRate
  | _ => True

/-- Whether a write disturbs a commission is read off the deal. -/
instance : ∀ deals w, Decidable (Undisturbed deals w)
  | deals, .updateDeal dealId _ _ patch =>
    inferInstanceAs (Decidable (∀ row ∈ deals dealId, ∀ price ∈ patch.price,
      row.commissionBasis = some .percentage →
        figure price row.commissionRate = figure row.price row.commissionRate))
  | _, .createDeal .. | _, .setCommission .. | _, .transition .. => inferInstanceAs (Decidable True)

/-- The three columns of a commission. -/
def CommissionedDeal.commission (row : CommissionedDeal) :
    Option CommissionBasis × Option Int × Option Int :=
  (row.commissionBasis, row.commissionRate, row.commissionAmount)

/-- The one write that sets a commission. -/
def Write.setsCommission : Write → Bool
  | .setCommission .. => true
  | _ => false

/-- Why a row is `InStep`: its columns hold admitted values, and a percentage is up to date. -/
structure Inv (row : CommissionedDeal) : Prop where
  price : ∀ price ∈ row.price, MoneyCents price
  rate : ∀ rate ∈ row.commissionRate, RateThousandths rate
  amount : row.commissionBasis = some .percentage →
    figure row.price row.commissionRate = .ok row.commissionAmount

/-! ### A rate read from its column -/

/-- A price in its column is one that the schema admits. -/
def MoneyCents.field {n : Int} (h : MoneyCents n) : MoneyField where
  val := ofCents n
  property := by
    have hpow : (10 : ℚ) ^ (-2 : Int) = 1 / 100 := by norm_num
    have hn : (0 : ℚ) < n := Int.cast_pos.2 h.1
    have hn' : (n : ℚ) ≤ 99999999999900 := by exact_mod_cast h.2
    refine ⟨?_, ?_, Nat.sub_le _ _⟩
    all_goals
      rw [DecimalNumber.toRat, ofCents, hpow]
      linarith

/-- A rate of so many thousandths. -/
def RateThousandths.field {n : Int} (h : RateThousandths n) : RateField where
  val := ofThousandths n
  property := by
    have hpow : (10 : ℚ) ^ (-3 : Int) = 1 / 1000 := by norm_num
    have hn : (0 : ℚ) ≤ n := Int.cast_nonneg h.1
    have hn' : (n : ℚ) ≤ 100000 := by exact_mod_cast h.2
    refine ⟨?_, ?_, Nat.sub_le _ _⟩
    all_goals
      rw [DecimalNumber.toRat, ofThousandths, hpow]
      linarith

/-- A number with as many places as the column is kept as it is. -/
theorem column_toRat {places : Nat} {x : DecimalNumber} (h : x.decimalPlaces ≤ places)
    (h0 : 0 ≤ x.toRat) : (DecimalNumber.mk (column places x) (-places)).toRat = x.toRat := by
  obtain ⟨m, hm⟩ := toRat_of_decimalPlaces h h0
  refine (rescale_toRat .halfUp (m := m) ?_).1
  rw [zpow_sub₀ (by norm_num), ← mul_div_assoc, ← abs_toRat, abs_of_nonneg h0, hm,
    mul_div_cancel_right₀ _ (zpow_ne_zero _ (by norm_num))]

/-- A rate is stored in thousandths. -/
theorem rateThousandths_column (rate : RateField) : RateThousandths (column 3 rate.val) := by
  have hvalue := column_toRat rate.property.2.2 rate.property.1
  have hpow : (10 : ℚ) ^ (-(3 : Nat) : Int) = 1 / 1000 := by norm_num
  have hlow := rate.property.1
  have hhigh := rate.property.2.1
  rw [← hvalue, DecimalNumber.toRat, hpow] at hlow hhigh
  dsimp only at hlow hhigh
  have hlow' : (0 : ℚ) ≤ (column 3 rate.val : Int) := by linarith
  have hhigh' : ((column 3 rate.val : Int) : ℚ) ≤ (100000 : Int) := by
    push_cast
    linarith
  exact ⟨Int.cast_nonneg_iff.1 hlow', Int.cast_le.1 hhigh'⟩

/-- The amount depends on what price and rate stand for, not on how they are written. -/
theorem commissionAmount_congr {price price' : MoneyField} {rate rate' : RateField}
    (hprice : price.toRat = price'.toRat) (hrate : rate.toRat = rate'.toRat) :
    commissionAmount price.val rate.val = commissionAmount price'.val rate'.val := by
  obtain ⟨-, -, amount, -, -, -, -, h, hexponent, hvalue⟩ := commission_stages price rate
  obtain ⟨-, -, amount', -, -, -, -, h', hexponent', hvalue'⟩ := commission_stages price' rate'
  rw [hprice, hrate, ← hvalue', DecimalNumber.toRat, DecimalNumber.toRat, hexponent,
    hexponent'] at hvalue
  have hcoefficient := Int.cast_injective
    (mul_right_cancel₀ (zpow_ne_zero _ (by norm_num : (10 : ℚ) ≠ 0)) hvalue)
  rw [h, h']
  congr 1
  cases amount
  cases amount'
  cases hcoefficient
  cases hexponent
  cases hexponent'
  rfl

/-- Cents are stored as they are. -/
theorem column_ofCents (n : Int) : column 2 (ofCents n) = n := by
  have hshift : Rounding.halfUp.shift n.natAbs ((-2 : Int) - (-(2 : Nat) : Int)) = n.natAbs :=
    shift_exact .halfUp (by norm_num)
  show n.sign * (Rounding.halfUp.shift n.natAbs ((-2 : Int) - (-(2 : Nat) : Int)) : Int) = n
  rw [hshift, Int.sign_mul_natAbs]

/-- Admitted columns have a figure. -/
theorem figure_ok {price rate : Int} (hprice : MoneyCents price) (hrate : RateThousandths rate) :
    ∃ amount, commissionAmount (ofCents price) (ofThousandths rate) = .ok (ofCents amount) ∧
      figure (some price) (some rate) = .ok (some amount) := by
  obtain ⟨-, -, ⟨amount, exponent⟩, -, -, -, -, h, hexponent, -⟩ :=
    commission_stages hprice.field hrate.field
  cases hexponent
  have h : commissionAmount (ofCents price) (ofThousandths rate) = .ok (ofCents amount) := h
  refine ⟨amount, h, ?_⟩
  show (commissionAmount (ofCents price) (ofThousandths rate) >>= fun a =>
    pure (some (column 2 a))) = _
  rw [h]
  show Except.ok (some (column 2 (ofCents amount))) = _
  rw [column_ofCents]

/-- The amount, from what is stored. -/
theorem derivedAmount_column {price : Option Int} (hprice : ∀ p ∈ price, MoneyCents p)
    (rate : Option RateField) :
    derivedAmount price (rate.map (·.val)) =
      figure price (rate.map fun rate => column 3 rate.val) := by
  match price, rate with
  | none, _ => rfl
  | some _, none => rfl
  | some price, some rate =>
    have hcolumn : (rateThousandths_column rate).field.toRat = rate.toRat :=
      column_toRat rate.property.2.2 rate.property.1
    have hsame : commissionAmount (hprice price rfl).field.val rate.val =
        commissionAmount (hprice price rfl).field.val (rateThousandths_column rate).field.val :=
      commissionAmount_congr rfl hcolumn.symm
    have hsame : commissionAmount (ofCents price) rate.val =
        commissionAmount (ofCents price) (ofThousandths (column 3 rate.val)) := hsame
    show (commissionAmount (ofCents price) rate.val >>= fun a => pure (some (column 2 a))) = _
    rw [hsame]
    rfl

/-! ### What the operations leave -/

/-- A new deal has the price given. -/
theorem createDeal_price {boundaries : Boundaries} {scope : Option (List Uuid)} {actor : Uuid}
    {data : DealCreate} {deal : Deal} (h : createDeal boundaries scope actor data = .ok deal) :
    deal.price = data.price := by
  unfold createDeal at h
  dsimp only at h
  split at h
  · cases h
  · split at h
    · obtain ⟨_, -, h⟩ := bind_eq_ok h
      obtain ⟨_, -, h⟩ := bind_eq_ok h
      cases h
      rfl
    · obtain ⟨_, -, h⟩ := bind_eq_ok h
      cases h
      rfl

/-- An update changes the price only if it names one. -/
theorem updateDeal_price {boundaries : Boundaries} {scope : Option (List Uuid)}
    {patch : DealUpdate} {deal deal' : Deal}
    (h : updateDeal boundaries scope patch deal = .ok (some deal')) :
    deal'.price = patch.price.getD deal.price := by
  have happly : ∀ {result}, patch.apply deal = result → result = some deal' →
      deal'.price = patch.price.getD deal.price := by
    rintro _ rfl hresult
    obtain ⟨_, -, rfl⟩ := Option.map_eq_some_iff.1 hresult
    rfl
  unfold updateDeal at h
  obtain ⟨_, -, h⟩ := bind_eq_ok h
  dsimp only at h
  split at h
  · cases h
  · split at h
    · obtain ⟨_, -, h⟩ := bind_eq_ok h
      obtain ⟨_, -, h⟩ := bind_eq_ok h
      exact happly rfl (Except.ok.inj h)
    · obtain ⟨_, -, h⟩ := bind_eq_ok h
      exact happly rfl (Except.ok.inj h)

theorem transition_price {scope : Option (List Uuid)} {dealId : Uuid} {now : DateTime}
    {data : DealTransition} {deal : Deal} {result : Deal × List Events.DomainEvent}
    (h : transition scope dealId now data deal = .ok result) : result.1.price = deal.price := by
  unfold transition at h
  obtain ⟨_, -, h⟩ := bind_eq_ok h
  dsimp only at h
  split at h
  · cases h
    rfl
  · split at h
    · cases h
    · split at h
      · cases h
      · split at h
        all_goals
          cases h
          rfl

theorem orSignal_eq_ok {α : Type} {e : Except DecimalSignal α} {a : α}
    (h : orSignal e = .ok a) : e = .ok a := by
  cases e with
  | error => cases h
  | ok b =>
    cases h
    rfl

/-- A commission set is in step with price and rate. -/
theorem setCommission_inv {role : Role} {scope : Option (List Uuid)} {data : CommissionUpdate}
    {row row' : CommissionedDeal} (h : setCommission role scope data row = .ok row')
    (hprice : ∀ price ∈ row.price, MoneyCents price) : Inv row' := by
  unfold setCommission at h
  obtain ⟨_, -, h⟩ := Failure.bind_eq_ok h
  obtain ⟨_, -, h⟩ := Failure.bind_eq_ok h
  split at h
  · obtain ⟨amount, hamount, h⟩ := Failure.bind_eq_ok h
    cases h
    have hamount := orSignal_eq_ok hamount
    rw [derivedAmount_column hprice] at hamount
    refine ⟨hprice, fun rate hrate => ?_, fun _ => hamount⟩
    obtain ⟨field, -, rfl⟩ := Option.map_eq_some_iff.1 hrate
    exact rateThousandths_column field
  · cases h
    exact ⟨hprice, fun _ hrate => (nomatch hrate), fun hbasis => (nomatch hbasis)⟩

/-! ### Runs -/

/-- **Step.** -/
theorem inv_step {deals deals' : Deals} {w : Write} (hinv : ∀ dealId row,
    deals dealId = some row → Inv row) (hw : Undisturbed deals w)
    (hst : step deals w = some deals') {dealId : Uuid} {row : CommissionedDeal}
    (hrow : deals' dealId = some row) : Inv row := by
  cases w with
  | createDeal id new =>
    obtain ⟨⟨-, hprice⟩, hst⟩ := Option.ite_none_right_eq_some.1 hst
    obtain ⟨deal, hdeal, rfl⟩ := Option.map_eq_some_iff.1 hst
    rcases Machine.update_cases hrow with ⟨-, hnew⟩ | ⟨-, hold⟩
    · cases hnew
      have hsame := createDeal_price (toOption_eq_some hdeal)
      exact ⟨hsame ▸ hprice, fun _ hrate => (nomatch hrate), fun hbasis => (nomatch hbasis)⟩
    · exact hinv _ _ hold
  | updateDeal id boundaries scope patch =>
    obtain ⟨hprice, hst⟩ := Option.ite_none_right_eq_some.1 hst
    obtain ⟨old, hold, hst⟩ := Option.bind_eq_some_iff.1 hst
    obtain ⟨deal, hdeal, rfl⟩ := Option.map_eq_some_iff.1 hst
    obtain ⟨result, hresult, hjoin⟩ := Option.bind_eq_some_iff.1 hdeal
    cases hjoin
    rcases Machine.update_cases hrow with ⟨-, hnew⟩ | ⟨-, hother⟩
    · cases hnew
      have hI := hinv _ _ hold
      have hsame := updateDeal_price (toOption_eq_some hresult)
      cases hpatch : patch.price with
      | none =>
        rw [hpatch, Option.getD_none] at hsame
        exact ⟨hsame ▸ hI.price, hI.rate, fun hbasis => hsame ▸ hI.amount hbasis⟩
      | some price =>
        rw [hpatch, Option.getD_some] at hsame
        rw [hpatch] at hprice
        -- An edited price keeps the figure in step only by the guard.
        refine ⟨hsame ▸ hprice, hI.rate, fun hbasis => ?_⟩
        have hfigure := hw old hold price hpatch hbasis
        exact hsame ▸ hfigure.trans (hI.amount hbasis)
    · exact hinv _ _ hother
  | setCommission id role scope data =>
    obtain ⟨old, hold, hst⟩ := Option.bind_eq_some_iff.1 hst
    obtain ⟨new, hset, rfl⟩ := Option.map_eq_some_iff.1 hst
    rcases Machine.update_cases hrow with ⟨-, hnew⟩ | ⟨-, hother⟩
    · cases hnew
      cases hresult : setCommission role scope data old with
      | error => rw [hresult] at hset; cases hset
      | ok result =>
        rw [hresult] at hset
        cases hset
        exact setCommission_inv hresult (hinv _ _ hold).price
    · exact hinv _ _ hother
  | transition id scope now data =>
    obtain ⟨old, hold, hst⟩ := Option.bind_eq_some_iff.1 hst
    obtain ⟨⟨deal, events⟩, hresult, rfl⟩ := Option.map_eq_some_iff.1 hst
    rcases Machine.update_cases hrow with ⟨-, hnew⟩ | ⟨-, hother⟩
    · cases hnew
      have hI := hinv _ _ hold
      have hsame : deal.price = old.price := transition_price (toOption_eq_some hresult)
      exact ⟨hsame ▸ hI.price, hI.rate, fun hbasis => hsame ▸ hI.amount hbasis⟩
    · exact hinv _ _ hother

/-- The commission of a deal is written by `set_commission` only. -/
theorem commission_kept {deals deals' : Deals} {w : Write} (hw : w.setsCommission = false)
    (hst : step deals w = some deals') {dealId : Uuid} {row : CommissionedDeal}
    (hrow : deals dealId = some row) :
    ∃ row', deals' dealId = some row' ∧ row'.commission = row.commission := by
  have hput : ∀ {id : Uuid} {old : CommissionedDeal} {deal : Deal}, deals id = some old →
      ∃ row', Function.update deals id (some { old with toDeal := deal }) dealId = some row' ∧
        row'.commission = row.commission := by
    intro id old deal hold
    by_cases hid : dealId = id
    · subst hid
      cases hold.symm.trans hrow
      exact ⟨_, Function.update_self .., rfl⟩
    · exact ⟨row, (Function.update_of_ne hid ..).trans hrow, rfl⟩
  cases w with
  | createDeal id new =>
    obtain ⟨⟨hnone, -⟩, hst⟩ := Option.ite_none_right_eq_some.1 hst
    obtain ⟨deal, -, rfl⟩ := Option.map_eq_some_iff.1 hst
    have hid : dealId ≠ id := by
      rintro rfl
      rw [hrow] at hnone
      cases hnone
    exact ⟨row, (Function.update_of_ne hid ..).trans hrow, rfl⟩
  | updateDeal id boundaries scope patch =>
    obtain ⟨-, hst⟩ := Option.ite_none_right_eq_some.1 hst
    obtain ⟨old, hold, hst⟩ := Option.bind_eq_some_iff.1 hst
    obtain ⟨deal, -, rfl⟩ := Option.map_eq_some_iff.1 hst
    exact hput hold
  | setCommission => cases hw
  | transition id scope now data =>
    obtain ⟨old, hold, hst⟩ := Option.bind_eq_some_iff.1 hst
    obtain ⟨⟨deal, events⟩, -, rfl⟩ := Option.map_eq_some_iff.1 hst
    exact hput hold

/-- The invariant contains what is claimed of a deal. -/
theorem Inv.inStep {row : CommissionedDeal} (h : Inv row) : InStep row where
  derived hbasis price rate hprice hrate := by
    obtain ⟨amount, hamount, hfigure⟩ := figure_ok (h.price price hprice) (h.rate rate hrate)
    have hcolumn := h.amount hbasis
    rw [hprice, hrate, hfigure] at hcolumn
    exact ⟨amount, (Except.ok.inj hcolumn).symm, hamount⟩
  unpriced hbasis hprice := by
    have hcolumn := h.amount hbasis
    rw [hprice] at hcolumn
    exact (Except.ok.inj hcolumn).symm

/-- **Commissions follow their deals**, in every run without an edit of a price that changes what
a percentage comes to; and nothing but `set_commission` alters a flat one. -/
theorem commission_in_step {deals : Deals} (h : commissions.ReachVia Undisturbed deals)
    {dealId : Uuid} {row : CommissionedDeal} (hrow : deals dealId = some row) :
    InStep row ∧ ∀ w deals', w.setsCommission = false → step deals w = some deals' →
      row.commissionBasis = some .flat →
      ∃ row', deals' dealId = some row' ∧ row'.commission = row.commission := by
  have hinv : commissions.Inductive Undisturbed
      (fun deals => ∀ dealId row, deals dealId = some row → Inv row) := by
    constructor
    · rintro _ rfl _ _ hrow
      cases hrow
    · intro deals w deals' hinv hw hst dealId row hrow
      exact inv_step hinv hw hst hrow
  exact ⟨(hinv.always h dealId row hrow).inStep,
    fun w deals' hw hst _ => commission_kept hw hst hrow⟩

/-! ### Runs on one deal -/

/-- Two and a half per cent. -/
def rate : RateField where
  val := ⟨25, -1⟩
  property := by
    refine ⟨?_, ?_, by decide⟩ <;> norm_num [DecimalNumber.toRat]

/-- Whatever is named exists. -/
def everyone : Boundaries := ⟨fun _ => true, fun _ => true, fun _ => true, fun _ => true⟩

/-- A deal at 1,000,000.00. -/
def opening : List Write :=
  [.createDeal 1 ⟨everyone, none, 7, { title := "Villa", price := some 100000000 }⟩]

/-- A commission by percentage. -/
def percentage : Write := .setCommission 1 .admin none ⟨.percentage, some rate, none, rfl⟩

/-- Its price is doubled. -/
def doubling : Write := .updateDeal 1 everyone none { price := some (some 200000000) }

/-- Opened at another price, edited before its commission is set, and renamed and closed after:
the commission is what the price and the rate come to. -/
theorem commission_in_step_closed : ∃ deals row, commissions.ReachVia Undisturbed deals ∧
    deals 1 = some row ∧ row.commissionAmount = some 5000000 ∧ InStep row := by
  obtain ⟨deals, hdeals, hp⟩ := Machine.exists_reachVia_of_run (M := commissions)
    (G := Undisturbed) (s := fun _ => none)
    (opening ++ [doubling, percentage, .updateDeal 1 everyone none { title := some "House" },
      .transition 1 none 10 ⟨.closedWon, none⟩])
    (fun deals => (deals 1).any fun row => row.commissionAmount = some 5000000) rfl (by decide)
  obtain ⟨row, hrow, hamount⟩ := (Option.any_eq_true ..).1 hp
  exact ⟨deals, row, hdeals, hrow, of_decide_eq_true hamount, (commission_in_step hdeals hrow).1⟩

/-- The price is edited after the commission was set: the amount stays what it was. -/
theorem commission_out_of_step : ∃ deals row, commissions.Reachable deals ∧
    deals 1 = some row ∧ ¬InStep row := by
  obtain ⟨deals, hdeals, hp⟩ := Machine.exists_reachable_of_run (M := commissions)
    (s := fun _ => none)
    (opening ++ [percentage, doubling])
    (fun deals => (deals 1).any fun row => row.commissionBasis = some .percentage ∧
      row.price = some 200000000 ∧ row.commissionRate = some 2500 ∧
      row.commissionAmount = some 2500000) rfl (by decide)
  obtain ⟨row, hrow, hcolumns⟩ := (Option.any_eq_true ..).1 hp
  obtain ⟨hbasis, hprice, hrate, hamount⟩ := of_decide_eq_true hcolumns
  refine ⟨deals, row, hdeals, hrow, fun h => ?_⟩
  obtain ⟨amount, hstored, hfigure⟩ := h.derived hbasis _ _ hprice hrate
  cases hamount.symm.trans hstored
  have hdue : commissionAmount (ofCents 200000000) (ofThousandths 2500) = .ok (ofCents 5000000) :=
    rfl
  cases hdue.symm.trans hfigure

end Transactions

end RealEstate
