import RealEstate.Common.Amortization
import RealEstate.Systems.JsonText

/-!
# The mortgage calculator (`valuations/service.py`)

- `tenantMortgageSettings`: the tenant's defaults, which are free-form JSON.
- `mortgageEstimate`: the estimate.
- `Answered`: settings that can be read, and a rate that is not lost; then an estimate is returned.
- `Exact`: twenty-eight digits hold its sums, and what is due covers the loan.
- `mortgageEstimate_adds_up`: then it adds up. `Plain` requests are all of that kind.
-/

namespace RealEstate

namespace Valuations

open RealEstate.Core Systems Common

namespace Mortgage

/-! ### The settings -/

/-- `DEFAULT_ANNUAL_RATE_PERCENT`. -/
def defaultAnnualRatePercent : DecimalNumber := ⟨65, -1⟩

/-- `DEFAULT_TERM_YEARS`. -/
def defaultTermYears : Int := 25

/-- `DEFAULT_DOWN_PAYMENT_PERCENT`. -/
def defaultDownPaymentPercent : DecimalNumber := .ofInt 20

/-- `MAX_TERM_YEARS`. -/
def maxTermYears : Int := 40

/-- `bool(value)`. -/
def truthy : JsonValue → Bool
  | .null => false
  | .bool b => b
  | .int n => n ≠ 0
  | .float (.decimal _ mantissa _) => mantissa ≠ 0
  | .float _ => true
  | .str t => !t.isEmpty
  | .arr xs => !xs.isEmpty
  | .obj fields => !fields.isEmpty

/-- `fields.get(key)`; an absent key is `None`. -/
def field (key : String) (fields : List (Text × JsonValue)) : JsonValue :=
  (fields.lookup key.toList).getD .null

/-- `value if 0 <= value <= top else default`. -/
def inRange (top : Nat) (default value : DecimalNumber) : DecimalNumber :=
  if 0 ≤ value.toRat ∧ value.toRat ≤ top then value else default

/-- `Decimal(str(value)) if isinstance(value, int | float) and 0 <= value <= top else default`. A
`float` stands for the decimal that `str` writes. -/
def percentSetting (top : Nat) (default : DecimalNumber) :
    JsonValue → Except PyException DecimalNumber
  | .int n => .ok (inRange top default (.ofInt n))
  | .float (.decimal negative mantissa exponent) =>
    .ok (inRange top default ⟨if negative then -mantissa else mantissa, exponent⟩)
  -- a `bool` is an `int`, and neither `True` nor `False` is the text of a number
  | .bool b => if b.toNat ≤ top then .error .invalidOperation else .ok default
  | _ => .ok default

/-- `term if isinstance(term, int) and 1 <= term <= 40 else DEFAULT_TERM_YEARS`. -/
def termSetting : JsonValue → Int
  | .int n => if 1 ≤ n ∧ n ≤ maxTermYears then n else defaultTermYears
  | .bool b => if b then 1 else defaultTermYears
  | _ => defaultTermYears

/-- `tenant.settings.get("mortgage") or {}`, when it has a method `get`. -/
def mortgageSettings (settings : List (Text × JsonValue)) :
    Except PyException (List (Text × JsonValue)) :=
  match field "mortgage" settings with
  | .obj fields => .ok fields
  | value => if truthy value then .error .attributeError else .ok []

/-- `_tenant_mortgage_settings`. -/
def tenantMortgageSettings (settings : List (Text × JsonValue)) :
    Except PyException (DecimalNumber × Int × DecimalNumber) := do
  let raw ← mortgageSettings settings
  let rate ← percentSetting 100 defaultAnnualRatePercent (field "default_annual_rate_percent" raw)
  let termYears := termSetting (field "default_term_years" raw)
  let down ← percentSetting 95 defaultDownPaymentPercent (field "default_down_payment_percent" raw)
  .ok (rate, termYears, down)

/-! ### The estimate -/

/-- A `MortgageEstimateIn`. -/
structure MortgageEstimateIn where
  price : DecimalNumber
  downPayment : Option DecimalNumber
  annualRatePercent : Option DecimalNumber
  termYears : Option Int
  price_pos : 0 < price.toRat
  price_le : price.toRat ≤ 99999999999999 / 100
  down_nonneg : ∀ down ∈ downPayment, 0 ≤ down.toRat
  down_lt : ∀ down ∈ downPayment, down.toRat < price.toRat
  rate_range : ∀ rate ∈ annualRatePercent, 0 ≤ rate.toRat ∧ rate.toRat ≤ 100
  term_range : ∀ years ∈ termYears, 1 ≤ years ∧ years ≤ maxTermYears

/-- A `MortgageEstimateOut`. -/
structure MortgageEstimateOut where
  price : DecimalNumber
  downPayment : DecimalNumber
  loanAmount : DecimalNumber
  annualRatePercent : DecimalNumber
  termYears : Int
  monthlyPayment : DecimalNumber
  totalPaid : DecimalNumber
  totalInterest : DecimalNumber
  deriving DecidableEq, Repr

/-- Why `mortgage_estimate` raises. -/
inductive EstimateError where
  | settings (e : PyException)
  | arithmetic (e : PaymentError)
  deriving DecidableEq, Repr

/-- An operation of the default context. -/
def arithmetic {α : Type} (x : Except DecimalSignal α) : Except EstimateError α :=
  x.mapError fun signal => .arithmetic (.decimal signal)

/-- The down payment that was given, or the tenant's share of the price. -/
def downPaymentOf (data : MortgageEstimateIn) (downPercent : DecimalNumber) :
    Except EstimateError DecimalNumber :=
  match data.downPayment with
  | some down => .ok down
  | none => arithmetic (percentageOf data.price downPercent)

/-- `mortgage_estimate`. -/
def mortgageEstimate (settings : List (Text × JsonValue)) (data : MortgageEstimateIn) :
    Except EstimateError MortgageEstimateOut := do
  let (rate, termYears, downPercent) ← (tenantMortgageSettings settings).mapError .settings
  let annualRate := data.annualRatePercent.getD rate
  let years := data.termYears.getD termYears
  let down ← downPaymentOf data downPercent
  let principal ← arithmetic (defaultContext.sub data.price down)
  let months := years * 12
  let monthly ← (monthlyPayment principal annualRate months).mapError .arithmetic
  let paid ← arithmetic (defaultContext.mul monthly (.ofInt months))
  let totalPaid ← arithmetic (toMoney paid)
  let totalInterest ← arithmetic (defaultContext.sub totalPaid principal)
  .ok {
    price := data.price
    downPayment := down
    loanAmount := principal
    annualRatePercent := annualRate
    termYears := years
    monthlyPayment := monthly
    totalPaid
    totalInterest
  }

/-! ### Reading the settings -/

/-- The settings that the calculator can read: none, or an object whose percentages are no
booleans. -/
def Readable (settings : List (Text × JsonValue)) : Prop :=
  truthy (field "mortgage" settings) = false ∨
    ∃ fields, field "mortgage" settings = .obj fields ∧
      (∀ b, field "default_annual_rate_percent" fields ≠ .bool b) ∧
      ∀ b, field "default_down_payment_percent" fields ≠ .bool b

/-- What is used is in range. -/
theorem inRange_range {top : Nat} {default : DecimalNumber}
    (hdefault : 0 ≤ default.toRat ∧ default.toRat ≤ top) (value : DecimalNumber) :
    0 ≤ (inRange top default value).toRat ∧ (inRange top default value).toRat ≤ top := by
  unfold inRange
  split
  · next hvalue => exact hvalue
  · exact hdefault

/-- Any JSON value but a boolean gives a percentage in range. -/
theorem percentSetting_ok {top : Nat} {default : DecimalNumber} {value : JsonValue}
    (hdefault : 0 ≤ default.toRat ∧ default.toRat ≤ top) (h : ∀ b, value ≠ .bool b) :
    ∃ percent, percentSetting top default value = .ok percent ∧
      0 ≤ percent.toRat ∧ percent.toRat ≤ top := by
  unfold percentSetting
  split
  · exact ⟨_, rfl, inRange_range hdefault _⟩
  · exact ⟨_, rfl, inRange_range hdefault _⟩
  · next b => exact absurd rfl (h b)
  · exact ⟨_, rfl, hdefault⟩

/-- A boolean is a signal of the decimal module. -/
theorem percentSetting_bool {top : Nat} (htop : 1 ≤ top) (default : DecimalNumber) (b : Bool) :
    percentSetting top default (.bool b) = .error .invalidOperation :=
  if_pos ((Bool.toNat_le b).trans htop)

theorem termSetting_range (value : JsonValue) :
    1 ≤ termSetting value ∧ termSetting value ≤ maxTermYears := by
  have hdefault : 1 ≤ defaultTermYears ∧ defaultTermYears ≤ maxTermYears := by decide
  unfold termSetting
  split
  · split
    · next hn => exact hn
    · exact hdefault
  · split
    · decide
    · exact hdefault
  · exact hdefault

/-- The default rate is. -/
theorem default_rate_range :
    0 ≤ defaultAnnualRatePercent.toRat ∧ defaultAnnualRatePercent.toRat ≤ (100 : Nat) := by
  rw [DecimalNumber.toRat, defaultAnnualRatePercent]
  norm_num

/-- So is the default down payment. -/
theorem default_down_range :
    0 ≤ defaultDownPaymentPercent.toRat ∧ defaultDownPaymentPercent.toRat ≤ (95 : Nat) := by
  rw [defaultDownPaymentPercent, ofInt_toRat]
  norm_num

section Settings

variable {settings fields : List (Text × JsonValue)}

theorem mortgageSettings_obj (h : field "mortgage" settings = .obj fields) :
    mortgageSettings settings = .ok fields := by
  rw [mortgageSettings, h]

theorem mortgageSettings_falsy (h : truthy (field "mortgage" settings) = false) :
    mortgageSettings settings = .ok [] := by
  unfold mortgageSettings
  split
  · next fields hfields =>
    rw [hfields, truthy, Bool.not_eq_false', List.isEmpty_iff] at h
    rw [h]
  · rw [if_neg (by rw [h]; exact Bool.false_ne_true)]

theorem mortgageSettings_truthy (h : truthy (field "mortgage" settings) = true)
    (hobj : ∀ fields, field "mortgage" settings ≠ .obj fields) :
    mortgageSettings settings = .error .attributeError := by
  unfold mortgageSettings
  split
  · next fields hfields => exact absurd hfields (hobj fields)
  · rw [if_pos h]

/-- **Readable settings give values in range.** -/
theorem tenantMortgageSettings_ok (h : Readable settings) :
    ∃ rate termYears down, tenantMortgageSettings settings = .ok (rate, termYears, down) ∧
      (0 ≤ rate.toRat ∧ rate.toRat ≤ (100 : Nat)) ∧ (1 ≤ termYears ∧ termYears ≤ maxTermYears) ∧
      (0 ≤ down.toRat ∧ down.toRat ≤ (95 : Nat)) := by
  obtain ⟨raw, hraw, hrate, hdown⟩ : ∃ raw, mortgageSettings settings = .ok raw ∧
      (∀ b, field "default_annual_rate_percent" raw ≠ .bool b) ∧
        ∀ b, field "default_down_payment_percent" raw ≠ .bool b := by
    rcases h with hfalsy | ⟨fields, hfields, hbools⟩
    · exact ⟨[], mortgageSettings_falsy hfalsy, by simp [field], by simp [field]⟩
    · exact ⟨fields, mortgageSettings_obj hfields, hbools⟩
  obtain ⟨rate, hrate, hrateRange⟩ := percentSetting_ok default_rate_range hrate
  obtain ⟨down, hdown, hdownRange⟩ := percentSetting_ok default_down_range hdown
  refine ⟨rate, _, down, ?_, hrateRange, termSetting_range (field "default_term_years" raw),
    hdownRange⟩
  rw [tenantMortgageSettings, hraw]
  simp only [bind, Except.bind, hrate, hdown]

/-- **All others make the calculator raise**, whatever it is asked. -/
theorem tenantMortgageSettings_error (h : ¬Readable settings) :
    ∃ e, tenantMortgageSettings settings = .error e := by
  have htruthy : truthy (field "mortgage" settings) = true := by
    cases hcase : truthy (field "mortgage" settings) with
    | true => rfl
    | false => exact absurd (.inl hcase) h
  rw [tenantMortgageSettings]
  by_cases hobj : ∃ fields, field "mortgage" settings = .obj fields
  · obtain ⟨fields, hfields⟩ := hobj
    rw [mortgageSettings_obj hfields]
    -- The text of a boolean is no decimal, and the rate is read first.
    by_cases hrate : ∃ b, field "default_annual_rate_percent" fields = .bool b
    · obtain ⟨b, hb⟩ := hrate
      refine ⟨.invalidOperation, ?_⟩
      simp only [bind, Except.bind, hb, percentSetting_bool (by decide : 1 ≤ 100)]
    · have hrate : ∀ b, field "default_annual_rate_percent" fields ≠ .bool b :=
        fun b hb => hrate ⟨b, hb⟩
      obtain ⟨b, hb⟩ : ∃ b, field "default_down_payment_percent" fields = .bool b := by
        by_contra hnone
        exact h (.inr ⟨fields, hfields, hrate, fun b hb => hnone ⟨b, hb⟩⟩)
      obtain ⟨rate, hok, -⟩ := percentSetting_ok default_rate_range hrate
      refine ⟨.invalidOperation, ?_⟩
      simp only [bind, Except.bind, hok, hb, percentSetting_bool (by decide : 1 ≤ 95)]
  · -- Settings that are no object have no `get`.
    refine ⟨.attributeError, ?_⟩
    rw [mortgageSettings_truthy htruthy fun fields hfields => hobj ⟨fields, hfields⟩]
    rfl

end Settings

/-! ### The sums -/

/-- A whole number of units of the fourteenth decimal place. -/
def Grid (q : ℚ) : Prop := ∃ m : Int, q = m / 10 ^ 14

section Grid

variable {p q : ℚ}

theorem Grid.sub (hp : Grid p) (hq : Grid q) : Grid (p - q) := by
  obtain ⟨m, rfl⟩ := hp
  obtain ⟨n, rfl⟩ := hq
  refine ⟨m - n, ?_⟩
  push_cast
  ring

/-- Few places are on the grid. -/
theorem grid_of_places {x : DecimalNumber} (h : x.decimalPlaces ≤ 14) (h0 : 0 ≤ x.toRat) :
    Grid x.toRat := by
  obtain ⟨m, hm⟩ := toRat_of_decimalPlaces h h0
  refine ⟨m, ?_⟩
  rw [hm, zpow_neg, zpow_natCast, Int.cast_natCast, div_eq_mul_inv]

theorem grid_of_cents {x : DecimalNumber} (h : x.exponent = -2) : Grid x.toRat := by
  refine ⟨x.coefficient * 10 ^ 12, ?_⟩
  rw [DecimalNumber.toRat, h]
  push_cast
  norm_num
  ring

/-- Fourteen places after the point and as many before it are held. -/
theorem Grid.fits (h : Grid q) (hsmall : |q| < 10 ^ 14) : defaultContext.Fits q := by
  obtain ⟨m, rfl⟩ := h
  have habs : |(m : ℚ) / 10 ^ 14| = (m.natAbs : ℚ) * 10 ^ (-14 : Int) := by
    rw [abs_div, abs_of_pos (by norm_num : (0 : ℚ) < 10 ^ 14), Nat.cast_natAbs, Int.cast_abs,
      div_eq_mul_inv]
    norm_num
  have hm : m.natAbs < 10 ^ 28 := by
    rw [abs_div, abs_of_pos (by norm_num : (0 : ℚ) < 10 ^ 14),
      div_lt_iff₀ (by norm_num)] at hsmall
    have hcast : ((m.natAbs : Nat) : ℚ) < (10 ^ 28 : Nat) := by
      rw [Nat.cast_natAbs, Int.cast_abs]
      push_cast
      linarith
    exact_mod_cast hcast
  obtain ⟨k, f, hk, hbounds⟩ := fits_of_scaled hm (by decide : -999999 ≤ (-14 : Int)) (by decide)
  rw [← habs, abs_abs] at hk hbounds
  exact ⟨k, f, hk, hbounds⟩

end Grid

/-- The share of a price that is paid down, rounded to cents, exceeds the price by less than a
cent. -/
theorem percentageOf_down {price percent : DecimalNumber} (hlow : 0 ≤ price.toRat)
    (hhigh : price.toRat ≤ 10 ^ 12) (hpercent0 : 0 ≤ percent.toRat)
    (hpercent : percent.toRat ≤ 95) :
    ∃ down, percentageOf price percent = .ok down ∧ down.exponent = -2 ∧
      0 ≤ down.toRat ∧ down.toRat ≤ price.toRat + 1 / 150 := by
  have htiny := tiny_default
  have hroom := room_default
  have hunit : (10 : ℚ) ^ (-defaultContext.prec : Int) = 1 / 10 ^ 28 := by
    show (10 : ℚ) ^ (-28 : Int) = 1 / 10 ^ 28
    norm_num
  have hhundred : (DecimalNumber.ofInt 100).toRat = 100 := ofInt_toRat 100
  have hbp0 : 0 ≤ price.toRat * percent.toRat := mul_nonneg hlow hpercent0
  have hbp : price.toRat * percent.toRat ≤ price.toRat * 95 :=
    mul_le_mul_of_nonneg_left hpercent hlow
  -- Three roundings: of the product, of the quotient, and to cents.
  obtain ⟨product, hproduct, hproductClose⟩ := @fix_close defaultContext
    ⟨price.coefficient * percent.coefficient, price.exponent + percent.exponent⟩ range_default (by
      rw [product_toRat, abs_of_nonneg hbp0]
      linarith only [hhigh, hroom, hbp])
  have hproduct0 := fix_nonneg hproduct (by rw [product_toRat]; exact hbp0)
  rw [product_toRat, abs_of_nonneg hbp0, unit_default, abs_le] at hproductClose
  obtain ⟨w, hw, hwNear⟩ := @div_fix defaultContext product (.ofInt 100) (by
    rw [hhundred]
    norm_num)
  rw [hunit, hhundred] at hwNear
  have hw0 := hwNear.ge (by positivity)
  have hwle := hwNear.le (by positivity)
  have hw0 : 0 ≤ w.toRat := by linarith only [hproduct0, hw0]
  obtain ⟨share, hshare, hshareClose⟩ := @fix_close defaultContext w range_default (by
    rw [abs_of_nonneg hw0]
    linarith only [hhigh, htiny, hroom, hbp, hproductClose, hwle])
  have hshare0 := fix_nonneg hshare hw0
  rw [abs_of_nonneg hw0, unit_default, abs_le] at hshareClose
  have hsmall : share.toRat ≤ price.toRat + 1 / 1000 := by
    linarith only [htiny, hbp, hproductClose, hwle, hshareClose]
  obtain ⟨down, hdown, hexponent, hvalue⟩ := toMoney_spec hshare0
    (by linarith only [hhigh, htiny, hbp, hproductClose, hwle, hshareClose])
  have hcents := (abs_le.1 (abs_cents_sub_le share.toRat)).2
  have hcents0 := cents_nonneg hshare0
  refine ⟨down, ?_, hexponent, by rwa [hvalue],
    by linarith only [htiny, hbp, hproductClose, hwle, hshareClose, hvalue, hcents]⟩
  have hmul : defaultContext.mul price percent = .ok product := hproduct
  unfold percentageOf
  rw [hmul]
  show defaultContext.div product (.ofInt 100) >>= toMoney = _
  rw [hw.trans hshare]
  exact hdown

/-! ### What is asked for -/

section Request

variable (settings : List (Text × JsonValue)) (data : MortgageEstimateIn)

/-- The rate of an estimate: the one that was given, or the tenant's. -/
def rateFor : DecimalNumber :=
  data.annualRatePercent.getD
    ((tenantMortgageSettings settings).toOption.elim defaultAnnualRatePercent (·.1))

/-- The months of its term. -/
def monthsFor : Nat :=
  (data.termYears.getD
    ((tenantMortgageSettings settings).toOption.elim defaultTermYears (·.2.1)) * 12).toNat

/-- The price without the down payment, or without the tenant's share of it. -/
def loanFor : ℚ :=
  let percent := (tenantMortgageSettings settings).toOption.elim defaultDownPaymentPercent (·.2.2)
  data.price.toRat - (downPaymentOf data percent).toOption.elim 0 DecimalNumber.toRat

/-- A payment that is due to the loan. -/
def DueFor (c : ℚ) : Prop :=
  Due (loanFor settings data) (rateFor settings data).toRat (monthsFor settings data) c

/-- Settings that can be read, and a rate that is not lost. -/
structure Answered : Prop where
  readable : Readable settings
  rate : Served (rateFor settings data).toRat

/-- Twenty-eight digits hold the loan and the interest, and what is due covers the loan. -/
structure Exact : Prop where
  loan : defaultContext.Fits (loanFor settings data)
  interest : ∀ c, DueFor settings data c →
    defaultContext.Fits (c * monthsFor settings data - loanFor settings data)
  covers : ∀ c, DueFor settings data c →
    loanFor settings data - monthsFor settings data * (5 / 1000) ≤ c * monthsFor settings data

/-- No two payments are due: half a cent is not within the last digits of the formula. -/
def Determined : Prop := ∀ c c', DueFor settings data c → DueFor settings data c' → c = c'

/-- Amounts of fourteen decimal places at most, and a rate that is zero or not tiny. -/
structure Plain : Prop where
  readable : Readable settings
  price : data.price.decimalPlaces ≤ 14
  down : ∀ down ∈ data.downPayment, down.decimalPlaces ≤ 14
  rate : (rateFor settings data).toRat = 0 ∨ Payable (rateFor settings data).toRat

end Request

/-- Whatever is due at the first request is at most what is due at the second. -/
def Ordered (settings : List (Text × JsonValue)) (data data' : MortgageEstimateIn) : Prop :=
  ∀ c c', DueFor settings data c → DueFor settings data' c' → c ≤ c'

/-- The sums of an estimate. -/
structure AddsUp (data : MortgageEstimateIn) (out : MortgageEstimateOut) : Prop where
  price : out.price = data.price
  loan : out.downPayment.toRat + out.loanAmount.toRat = out.price.toRat
  total : out.totalPaid.toRat = out.monthlyPayment.toRat * (out.termYears * 12)
  interest : out.totalInterest.toRat = out.totalPaid.toRat - out.loanAmount.toRat
  covers : out.loanAmount.toRat - out.termYears * 12 * (5 / 1000) ≤ out.totalPaid.toRat

/-- How an estimate is made. -/
structure Run (settings : List (Text × JsonValue)) (data : MortgageEstimateIn)
    (out : MortgageEstimateOut) : Prop where
  price : out.price = data.price
  down : out.downPayment.toRat = data.price.toRat - loanFor settings data
  lends : defaultContext.sub data.price out.downPayment = .ok out.loanAmount
  months : (out.termYears : ℚ) * 12 = monthsFor settings data
  due : Due out.loanAmount.toRat (rateFor settings data).toRat (monthsFor settings data)
    out.monthlyPayment.toRat
  total : out.totalPaid.toRat = out.monthlyPayment.toRat * monthsFor settings data
  interest : defaultContext.sub out.totalPaid out.loanAmount = .ok out.totalInterest
  small : |loanFor settings data| ≤ 10 ^ 12 ∧ |out.totalPaid.toRat - out.loanAmount.toRat| ≤ 10 ^ 15

section Estimate

variable {settings : List (Text × JsonValue)} {data data' : MortgageEstimateIn}
  {out : MortgageEstimateOut}

/-- What is read is in range, and the down payment exceeds the price by less than a cent. -/
theorem reads_ok (h : Readable settings) (data : MortgageEstimateIn) :
    ∃ rate termYears downPercent down,
      tenantMortgageSettings settings = .ok (rate, termYears, downPercent) ∧
      downPaymentOf data downPercent = .ok down ∧
      loanFor settings data = data.price.toRat - down.toRat ∧
      rateFor settings data = data.annualRatePercent.getD rate ∧
      data.termYears.getD termYears * 12 = monthsFor settings data ∧
      (0 ≤ (rateFor settings data).toRat ∧ (rateFor settings data).toRat ≤ 100) ∧
      (12 ≤ monthsFor settings data ∧ monthsFor settings data ≤ 480) ∧
      (0 ≤ down.toRat ∧ down.toRat ≤ data.price.toRat + 1 / 150) ∧
      (data.downPayment = some down ∨ down.exponent = -2) := by
  obtain ⟨rate, termYears, downPercent, hsettings, hrateRange, htermRange, hdownRange⟩ :=
    tenantMortgageSettings_ok h
  -- The down payment is given, or it is a percentage of the price.
  obtain ⟨down, hdown, hdownRange, hplaces⟩ : ∃ down, downPaymentOf data downPercent = .ok down ∧
      (0 ≤ down.toRat ∧ down.toRat ≤ data.price.toRat + 1 / 150) ∧
      (data.downPayment = some down ∨ down.exponent = -2) := by
    have hprice := data.price_pos
    have hhigh := data.price_le
    unfold downPaymentOf
    split
    · next down hdown =>
      have hlt := data.down_lt down hdown
      exact ⟨down, rfl, ⟨data.down_nonneg down hdown, by linarith only [hlt]⟩, .inl hdown⟩
    · obtain ⟨down, hdown, hexponent, h0, hle⟩ := percentageOf_down hprice.le
        (by linarith only [hhigh] : data.price.toRat ≤ 10 ^ 12) hdownRange.1
        (by exact_mod_cast hdownRange.2)
      exact ⟨down, by rw [arithmetic, hdown]; rfl, ⟨h0, hle⟩, .inr hexponent⟩
  have hyears : 1 ≤ data.termYears.getD termYears ∧ data.termYears.getD termYears ≤ 40 := by
    cases hterm : data.termYears with
    | none => exact htermRange
    | some years => exact data.term_range years hterm
  have hmonths : monthsFor settings data = (data.termYears.getD termYears * 12).toNat := by
    rw [monthsFor, hsettings]
    rfl
  have hrate : rateFor settings data = data.annualRatePercent.getD rate := by
    rw [rateFor, hsettings]
    rfl
  refine ⟨rate, termYears, downPercent, down, hsettings, hdown, ?_, hrate, by omega, ?_, by omega,
    hdownRange, hplaces⟩
  · rw [loanFor, hsettings]
    show data.price.toRat - (downPaymentOf data downPercent).toOption.elim 0 _ = _
    rw [hdown]
    rfl
  · rw [hrate]
    cases hgiven : data.annualRatePercent with
    | none => exact_mod_cast hrateRange
    | some given => exact data.rate_range given hgiven

/-- The loan, before it is rounded. -/
theorem loanFor_bounds (h : Readable settings) (data : MortgageEstimateIn) :
    -(1 / 150) ≤ loanFor settings data ∧ loanFor settings data ≤ 10 ^ 12 - 1 / 100 := by
  obtain ⟨_, _, _, down, -, -, hloan, -, -, -, -, ⟨hdown0, hdownLe⟩, -⟩ := reads_ok h data
  have hprice := data.price_pos
  have hhigh := data.price_le
  constructor <;> linarith only [hloan, hdownLe, hdown0, hhigh]

/-- A payment in cents, times the months. -/
theorem total_ok {monthly : DecimalNumber} {n : Nat} (hexponent : monthly.exponent = -2)
    (h0 : 0 ≤ monthly.toRat) (hle : n * monthly.toRat ≤ 10 ^ 14 - 1) :
    ∃ paid totalPaid, defaultContext.mul monthly (.ofInt n) = .ok paid ∧
      toMoney paid = .ok totalPaid ∧ totalPaid.toRat = monthly.toRat * n ∧
      Grid totalPaid.toRat := by
  have hn0 : (0 : ℚ) ≤ n := Nat.cast_nonneg n
  have hmonths : (DecimalNumber.ofInt n).toRat = n := by rw [ofInt_toRat, Int.cast_natCast]
  have htotal : monthly.toRat * n = (monthly.coefficient * n : Int) / 100 := by
    rw [DecimalNumber.toRat, hexponent]
    push_cast
    norm_num
    ring
  have htotal0 : 0 ≤ monthly.toRat * n := mul_nonneg h0 hn0
  have htotalGrid : Grid (monthly.toRat * n) :=
    ⟨monthly.coefficient * n * 10 ^ 12, by rw [htotal]; push_cast; ring⟩
  obtain ⟨paid, hpaid, hpaidValue⟩ := @mul_exact defaultContext monthly (.ofInt n) (by
    rw [hmonths]
    exact htotalGrid.fits (by rw [abs_of_nonneg htotal0]; linarith only [hle]))
  rw [hmonths] at hpaidValue
  obtain ⟨totalPaid, htotalPaid, -, htotalValue⟩ := toMoney_spec
    (by rw [hpaidValue]; exact htotal0)
    (by rw [hpaidValue]; linarith only [hle] : paid.toRat < 10 ^ 25)
  rw [hpaidValue, htotal, cents_of_int, ← htotal] at htotalValue
  exact ⟨paid, totalPaid, hpaid, htotalPaid, htotalValue, htotalValue ▸ htotalGrid⟩

/-- **An estimate is returned** from settings that can be read, at a rate that is not lost. -/
theorem estimate_ok (h : Answered settings data) :
    ∃ out, mortgageEstimate settings data = .ok out ∧ Run settings data out := by
  obtain ⟨rate, termYears, downPercent, down, hsettings, hdown, hloan, hrate, hmonths,
    ⟨hrate0, hrate100⟩, ⟨hn, hmax⟩, -, -⟩ := reads_ok h.readable data
  obtain ⟨hcent, hsize⟩ := loanFor_bounds h.readable data
  have hn480 : (monthsFor settings data : ℚ) ≤ 480 := by exact_mod_cast hmax
  have hn0 : (0 : ℚ) ≤ monthsFor settings data := Nat.cast_nonneg _
  have hloanAbs : |loanFor settings data| ≤ 10 ^ 12 - 1 / 100 := by
    rw [abs_le]
    constructor <;> linarith only [hcent, hsize]
  -- The subtraction may round, by less than a cent.
  obtain ⟨principal, hprincipal, hclose⟩ := @sub_close data.price down (by
    rw [← hloan]
    linarith only [hloanAbs])
  rw [← hloan] at hclose
  have hcloseAbs := abs_le.1 hclose
  have hp : |principal.toRat| ≤ 10 ^ 12 := by
    rw [abs_le]
    constructor <;> linarith only [hcent, hloanAbs, hcloseAbs, hsize]
  obtain ⟨monthly, hmonthly, hexponent, hdue⟩ := @monthlyPayment_due principal
    (rateFor settings data) _ h.rate hrate100 hn hmax hp
    (by linarith only [hcent, hloanAbs, hcloseAbs])
  -- A loan above zero is paid back; one below is no more than its rounding.
  obtain ⟨hmonthly0, htotalLe⟩ : 0 ≤ monthly.toRat ∧
      monthsFor settings data * monthly.toRat ≤ 10 ^ 14 - 1 := by
    rcases le_or_gt 0 principal.toRat with h0 | hneg
    · obtain ⟨hnonneg, hle⟩ := hdue.nonneg_of_nonneg hrate0 hrate100 hn hmax h0
      rw [abs_of_nonneg h0] at hp
      exact ⟨hnonneg, by linarith only [hsize, hn480, hloanAbs, hcloseAbs, hle]⟩
    · have hzero := hdue.eq_zero hrate0 hrate100 hn hmax (by
        rw [abs_of_neg hneg]
        linarith only [hcent, hloanAbs, hcloseAbs])
      rw [hzero]
      norm_num
  obtain ⟨paid, totalPaid, hpaid, htotalPaid, htotal, -⟩ := total_ok hexponent hmonthly0 htotalLe
  have hpAbs := abs_le.1 hp
  have htotal0 : 0 ≤ totalPaid.toRat := by
    rw [htotal]
    exact mul_nonneg hmonthly0 hn0
  have hinterestLe : |totalPaid.toRat - principal.toRat| ≤ 10 ^ 15 := by
    rw [abs_le]
    constructor <;> linarith only [hsize, hloanAbs, hcloseAbs, htotal0, hcent, htotalLe, htotal]
  obtain ⟨totalInterest, hinterest, -⟩ := @sub_close totalPaid principal
    (by linarith only [hinterestLe])
  have hyears : ((data.termYears.getD termYears : Int) : ℚ) * 12 = monthsFor settings data := by
    exact_mod_cast hmonths
  refine ⟨⟨data.price, down, principal, rateFor settings data, data.termYears.getD termYears,
    monthly, totalPaid, totalInterest⟩, ?_, rfl, ?_, hprincipal, hyears, hdue, htotal, hinterest,
    hloanAbs.trans (by norm_num), hinterestLe⟩
  · rw [hrate] at hmonthly ⊢
    rw [mortgageEstimate, hsettings]
    simp only [Except.mapError, bind, Except.bind, hdown, arithmetic, hprincipal, hmonths, hmonthly,
      hpaid, htotalPaid, hinterest]
  · dsimp only
    linarith only [hloan]

/-- **Otherwise the calculator raises.** -/
theorem estimate_raises (h : ¬Answered settings data) :
    ∃ e, mortgageEstimate settings data = .error e := by
  by_cases hreadable : Readable settings
  · obtain ⟨rate, termYears, downPercent, down, hsettings, hdown, hloan, hrate, hmonths,
      ⟨hrate0, -⟩, ⟨hn, -⟩, -, -⟩ := reads_ok hreadable data
    obtain ⟨hcent, hsize⟩ := loanFor_bounds hreadable data
    have hloanAbs : |loanFor settings data| ≤ 10 ^ 12 := by
      rw [abs_le]
      constructor <;> linarith only [hcent, hsize]
    obtain ⟨principal, hprincipal, -⟩ := @sub_close data.price down (by
      rw [← hloan]
      linarith only [hloanAbs])
    obtain ⟨e, he⟩ := @monthlyPayment_raises principal (rateFor settings data) _
      (fun hserved => h ⟨hreadable, hserved⟩) hrate0 hn
    refine ⟨.arithmetic e, ?_⟩
    rw [hrate] at he
    rw [mortgageEstimate, hsettings]
    simp only [Except.mapError, bind, Except.bind, hdown, arithmetic, hprincipal, hmonths, he]
  · obtain ⟨e, he⟩ := tenantMortgageSettings_error hreadable
    refine ⟨.settings e, ?_⟩
    rw [mortgageEstimate, he]
    rfl

/-! ### The estimate adds up -/

/-- What was returned without being rounded fits. -/
theorem fits_of_held {q : ℚ}
    (h : ∃ (m : Nat) (f : Int), |q| = m * 10 ^ f ∧ m < 10 ^ defaultContext.prec ∧
      defaultContext.etiny ≤ f) (hsmall : |q| ≤ 10 ^ 20) : defaultContext.Fits q := by
  obtain ⟨m, f, hq, hm, hf⟩ := h
  refine ⟨m, f, hq, hm, hf, hsmall.trans_lt ?_⟩
  have hlt : (10 : ℚ) ^ (20 : Int) < 10 ^ (defaultContext.emax + 1) :=
    zpow_lt_zpow_right₀ (by norm_num) (by decide)
  exact_mod_cast hlt

/-- When down payment and loan add up to the price. -/
theorem Run.loan_iff (h : Run settings data out) :
    out.downPayment.toRat + out.loanAmount.toRat = out.price.toRat ↔
      defaultContext.Fits (loanFor settings data) := by
  have hdown := h.down
  constructor
  · intro hloan
    have hvalue : loanFor settings data = out.loanAmount.toRat := by
      rw [h.price] at hloan
      linarith
    refine fits_of_held ?_ (h.small.1.trans (by norm_num))
    rw [hvalue]
    exact held_of_fix h.lends
  · intro hfits
    obtain ⟨loan, hlends, hvalue⟩ := @sub_exact defaultContext data.price out.downPayment (by
      rw [hdown, sub_sub_cancel]
      exact hfits)
    rw [h.price, ← Except.ok.inj (hlends.symm.trans h.lends), hvalue]
    linarith

/-- When the interest is what is paid beyond the loan. -/
theorem Run.interest_iff (h : Run settings data out) :
    out.totalInterest.toRat = out.totalPaid.toRat - out.loanAmount.toRat ↔
      defaultContext.Fits (out.totalPaid.toRat - out.loanAmount.toRat) := by
  constructor
  · intro hinterest
    refine fits_of_held ?_ (h.small.2.trans (by norm_num))
    rw [← hinterest]
    exact held_of_fix h.interest
  · intro hfits
    obtain ⟨interest, hsub, hvalue⟩ := sub_exact hfits
    rw [← Except.ok.inj (hsub.symm.trans h.interest), hvalue]

/-- What is lent, if it fits, is the loan, and the payment is due to it. -/
theorem Run.dueFor (h : Run settings data out)
    (hfits : defaultContext.Fits (loanFor settings data)) :
    out.loanAmount.toRat = loanFor settings data ∧
      DueFor settings data out.monthlyPayment.toRat := by
  have hloan := h.loan_iff.2 hfits
  have hdown := h.down
  have hvalue : out.loanAmount.toRat = loanFor settings data := by
    rw [h.price] at hloan
    linarith
  refine ⟨hvalue, ?_⟩
  rw [DueFor, ← hvalue]
  exact h.due

/-- **The sums are right** if and only if the loan and the interest fit, and the loan is covered. -/
theorem Run.addsUp_iff (h : Run settings data out) :
    AddsUp data out ↔ defaultContext.Fits (loanFor settings data) ∧
      defaultContext.Fits
        (out.monthlyPayment.toRat * monthsFor settings data - loanFor settings data) ∧
      loanFor settings data - monthsFor settings data * (5 / 1000) ≤
        out.monthlyPayment.toRat * monthsFor settings data := by
  have htotal := h.total
  have hmonths := h.months
  constructor
  · intro hsums
    have hfits := h.loan_iff.1 hsums.loan
    obtain ⟨hvalue, -⟩ := h.dueFor hfits
    rw [← hvalue, ← htotal, ← hmonths]
    exact ⟨hvalue ▸ hfits, h.interest_iff.1 hsums.interest, hsums.covers⟩
  · rintro ⟨hfits, hinterest, hcovers⟩
    obtain ⟨hvalue, -⟩ := h.dueFor hfits
    rw [← hvalue, ← htotal] at hinterest hcovers
    refine ⟨h.price, h.loan_iff.2 hfits, ?_, h.interest_iff.2 hinterest, ?_⟩
    · rw [hmonths, htotal]
    · rwa [hmonths]

/-- Two requests that differ in the rate only. -/
structure SameBut (data data' : MortgageEstimateIn) : Prop where
  price : data'.price = data.price
  down : data'.downPayment = data.downPayment
  term : data'.termYears = data.termYears

/-- They ask for the same loan over the same term. -/
theorem SameBut.loan (h : SameBut data data') (settings : List (Text × JsonValue)) :
    loanFor settings data' = loanFor settings data ∧
      monthsFor settings data' = monthsFor settings data := by
  constructor
  · simp only [loanFor, downPaymentOf, h.price, h.down]
  · simp only [monthsFor, h.term]

/-! ### Plain requests -/

theorem Plain.answered (h : Plain settings data) : Answered settings data :=
  ⟨h.readable, h.rate.imp_right Payable.served⟩

/-- Their loans are in whole units of the fourteenth place. -/
theorem Plain.grid (h : Plain settings data) : Grid (loanFor settings data) := by
  obtain ⟨_, _, _, down, -, -, hloan, -, -, -, -, ⟨hdown0, -⟩, hplaces⟩ := reads_ok h.readable data
  rw [hloan]
  refine (grid_of_places h.price data.price_pos.le).sub ?_
  rcases hplaces with hgiven | hcents
  · exact grid_of_places (h.down down hgiven) hdown0
  · exact grid_of_cents hcents

/-- **They are all exact.** -/
theorem Plain.exact (h : Plain settings data) : Exact settings data := by
  obtain ⟨_, _, _, down, -, -, -, -, -, ⟨hrate0, hrate100⟩, ⟨hn, hmax⟩, -, -⟩ :=
    reads_ok h.readable data
  obtain ⟨hcent, hsize⟩ := loanFor_bounds h.readable data
  have hn12 : (12 : ℚ) ≤ monthsFor settings data := by exact_mod_cast hn
  have hn480 : (monthsFor settings data : ℚ) ≤ 480 := by exact_mod_cast hmax
  have hgrid := h.grid
  refine ⟨hgrid.fits (by rw [abs_lt]; constructor <;> linarith only [hcent, hsize]), ?_, ?_⟩
  · -- The total and the loan lie on one grid, so their difference fits.
    intro c hdue
    have htotal : Grid (c * monthsFor settings data) := by
      obtain ⟨r, rfl, -⟩ := hdue
      refine ⟨round (r * 100) * monthsFor settings data * 10 ^ 12, ?_⟩
      rw [cents]
      push_cast
      ring
    refine (htotal.sub hgrid).fits ?_
    rcases le_or_gt 0 (loanFor settings data) with h0 | hneg
    · obtain ⟨hc0, hle⟩ := hdue.nonneg_of_nonneg hrate0 hrate100 hn hmax h0
      have := mul_nonneg hc0 (by linarith : (0 : ℚ) ≤ monthsFor settings data)
      rw [abs_lt]
      constructor <;> linarith only [hsize, this, hn480, hle]
    · rw [hdue.eq_zero hrate0 hrate100 hn hmax
        (by rw [abs_of_neg hneg]; linarith only [hcent]), zero_mul,
        zero_sub, abs_neg, abs_of_neg hneg]
      linarith only [hcent]
  · -- The rate covers the rounding of each payment, half a cent a month.
    intro c hdue
    rcases le_or_gt 0 (loanFor settings data) with h0 | hneg
    · have hcovers := hdue.covers h.rate hn h0
      have hscaled := mul_le_mul_of_nonneg_right hcovers
        (by linarith : (0 : ℚ) ≤ monthsFor settings data)
      have hexpand : (loanFor settings data / monthsFor settings data - 1 / 200) *
          monthsFor settings data =
          loanFor settings data - monthsFor settings data * (5 / 1000) := by
        field_simp
        ring
      rwa [hexpand] at hscaled
    · rw [hdue.eq_zero hrate0 hrate100 hn hmax
        (by rw [abs_of_neg hneg]; linarith only [hcent]), zero_mul]
      linarith only [hneg]

/-- **And payments do not decrease** when their rates grow. -/
theorem Plain.ordered (h : Plain settings data) (h' : Plain settings data')
    (hsame : SameBut data data')
    (hlt : (rateFor settings data).toRat < (rateFor settings data').toRat)
    (hapart : (rateFor settings data).toRat = 0 ∨
      Apart (rateFor settings data).toRat (rateFor settings data').toRat) :
    Ordered settings data data' := by
  obtain ⟨_, _, _, _, -, -, -, -, -, ⟨hrate0, hrate100⟩, ⟨hn, hmax⟩, -, -⟩ :=
    reads_ok h.readable data
  obtain ⟨_, _, _, _, -, -, -, -, -, ⟨hrate0', hrate100'⟩, -, -, -⟩ := reads_ok h'.readable data'
  obtain ⟨hcent, -⟩ := loanFor_bounds h.readable data
  obtain ⟨hloan, hmonths⟩ := hsame.loan settings
  have hpayable := h'.rate.resolve_left fun hzero => by linarith only [hlt, hrate0, hzero]
  intro c c' hdue hdue'
  rw [DueFor, hloan, hmonths] at hdue'
  rcases le_or_gt 0 (loanFor settings data) with h0 | hneg
  · exact hdue.mono hdue' h.rate hpayable hapart hn h0
  · rw [hdue.eq_zero hrate0 hrate100 hn hmax (by rw [abs_of_neg hneg]; linarith only [hcent]),
      hdue'.eq_zero hrate0' hrate100' hn hmax (by rw [abs_of_neg hneg]; linarith only [hcent])]

end Estimate

/-- A price of 250000.00 over twenty-five years, at a rate. -/
def request (rate : DecimalNumber) (h : 0 ≤ rate.toRat ∧ rate.toRat ≤ 100) :
    MortgageEstimateIn where
  price := ⟨25000000, -2⟩
  downPayment := some (.ofInt 50000)
  annualRatePercent := some rate
  termYears := some 25
  price_pos := by
    rw [DecimalNumber.toRat]
    norm_num
  price_le := by
    rw [DecimalNumber.toRat]
    norm_num
  down_nonneg := by
    rintro down ⟨⟩
    rw [ofInt_toRat]
    norm_num
  down_lt := by
    rintro down ⟨⟩
    rw [ofInt_toRat, DecimalNumber.toRat]
    norm_num
  rate_range := by
    rintro rate ⟨⟩
    exact h
  term_range := by
    rintro years ⟨⟩
    decide

/-- Four and a half percent. -/
def lowRequest : MortgageEstimateIn := request ⟨45, -1⟩ (by
  rw [DecimalNumber.toRat]
  norm_num)

/-- Six and a quarter. -/
def highRequest : MortgageEstimateIn := request ⟨625, -2⟩ (by
  rw [DecimalNumber.toRat]
  norm_num)

/-- `1E-26`: one and a twelve-hundredth of its hundredth is one. -/
def tinyRequest : MortgageEstimateIn := request ⟨1, -26⟩ (by
  rw [DecimalNumber.toRat]
  norm_num)

/-- A price of fifteen decimal places, without interest. -/
def longRequest : MortgageEstimateIn where
  price := ⟨250000000000000000001, -15⟩
  downPayment := some (.ofInt 50000)
  annualRatePercent := some (.ofInt 0)
  termYears := some 25
  price_pos := by
    rw [DecimalNumber.toRat]
    norm_num
  price_le := by
    rw [DecimalNumber.toRat]
    norm_num
  down_nonneg := by
    rintro down ⟨⟩
    rw [ofInt_toRat]
    norm_num
  down_lt := by
    rintro down ⟨⟩
    rw [ofInt_toRat, DecimalNumber.toRat]
    norm_num
  rate_range := by
    rintro rate ⟨⟩
    rw [ofInt_toRat]
    norm_num
  term_range := by
    rintro years ⟨⟩
    decide

/-- A request with a price of cents and the defaults. -/
theorem plain_request {rate : DecimalNumber} (h : 0 ≤ rate.toRat ∧ rate.toRat ≤ 100)
    (hrate : rate.toRat = 0 ∨ Payable rate.toRat) : Plain [] (request rate h) where
  readable := .inl rfl
  price := by
    show DecimalNumber.decimalPlaces ⟨25000000, -2⟩ ≤ 14
    decide
  down := by
    rintro down ⟨⟩
    decide
  rate := hrate

/-- The loan of the long price. -/
theorem longRequest_loan : loanFor [] longRequest = 200000000000000000001 / 10 ^ 15 := by
  show (DecimalNumber.mk 250000000000000000001 (-15)).toRat - (DecimalNumber.ofInt 50000).toRat = _
  rw [ofInt_toRat, DecimalNumber.toRat]
  norm_num

/-- Two hundred thousand and a bit are due in three hundred payments of 666.67. -/
theorem due_longRequest {c : ℚ} (h : DueFor [] longRequest c) : c = 66667 / 100 := by
  have hrate : (rateFor [] longRequest).toRat = 0 := ofInt_toRat 0
  have hmonths : monthsFor [] longRequest = 300 := rfl
  have hloan := longRequest_loan
  rw [DueFor, hloan, hmonths] at h
  obtain ⟨r, rfl, ⟨-, hnear, -⟩ | ⟨hne, -⟩⟩ := h
  · have hle := hnear.le (by norm_num)
    have hge := hnear.ge (by norm_num)
    norm_num at hle hge
    have hround : round (r * 100) = 66667 := by
      rw [round_eq, Int.floor_eq_iff]
      push_cast
      constructor <;> linarith only [hge, hle]
    rw [cents, hround]
    norm_num
  · exact absurd hrate hne

/-- A long price may still come out exact. -/
theorem exact_longRequest : Exact [] longRequest := by
  have hmonths : monthsFor [] longRequest = 300 := rfl
  have hloan := longRequest_loan
  refine ⟨?_, fun c hc => ?_, fun c hc => ?_⟩
  · have hscaled : loanFor [] longRequest = (200000000000000000001 : Nat) * 10 ^ (-15 : Int) := by
      rw [hloan]
      norm_num
    rw [hscaled]
    exact fits_of_scaled (by decide) (by decide) (by decide)
  · have hscaled : c * monthsFor [] longRequest - loanFor [] longRequest =
        (999999999999999 : Nat) * 10 ^ (-15 : Int) := by
      rw [due_longRequest hc, hloan, hmonths]
      norm_num
    rw [hscaled]
    exact fits_of_scaled (by decide) (by decide) (by decide)
  · rw [due_longRequest hc, hloan, hmonths]
    norm_num

end Mortgage

end Valuations

end RealEstate
