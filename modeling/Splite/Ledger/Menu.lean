import Splite.Ledger.Edits

/-!
# The menu, and opening a bill (`routes/menu.js`, `routes/bills.js`, `services/billOpen.js`)

A bill is opened with the rates that the restaurant and the exchange have at that moment, and keeps
them. What else refuses to open one, the table and the plan of the restaurant, is left out.

* `insertBill_ok`, `Opening.itemised`: the row of an opening, which has the figures of no lines when it
  is opened with a total of zero.
* `createProduct_productsOnly`, `updateProduct_productsOnly`, `deleteProduct_menuOnly`: a change of the
  menu writes the menu, and the link of a line to a product that is gone.
-/

namespace Splite

/-- A row of `restaurants`. -/
structure Restaurant where
  id : Uuid
  menuCurrency : Currency
  vatBps : Int
  serviceChargeBps : Int
  deriving DecidableEq, Repr

instance : Keyed Restaurant Uuid := ⟨Restaurant.id⟩

/-- What `getRateFor` answers with; the rate is times 10^8. -/
structure FxRate where
  rate : Int
  source : String
  deriving DecidableEq, Repr

/-- What `snapshotFx` returns. -/
structure FxSnapshot where
  totalDueVes : Int
  rate : Int
  source : String
  deriving DecidableEq, Repr

/-- `snapshotFx(menuCurrency, totalDueMinorUnits)`. -/
def snapshotFx (rateFor : Currency → Option FxRate) (menuCurrency : Currency)
    (totalDueMinorUnits : Int) : Except Err FxSnapshot :=
  if menuCurrency = .ves then .ok ⟨totalDueMinorUnits, RATE_SCALE, "IDENTITY"⟩
  else
    match rateFor menuCurrency with
    | none =>
      .error (.api .fxUnavailable ("No exchange rate is available for " ++ menuCurrency.text ++
        ", so the bill cannot be opened") [("currency", menuCurrency.text)])
    | some fx => do
      let scaled ← parseRate fx.rate
      let totalDueVes ← applyRate totalDueMinorUnits scaled "Bill total in VES"
      return ⟨totalDueVes, fx.rate, fx.source⟩

/-- What a request knows before the transaction that opens a bill. -/
structure Opening where
  callId : Uuid
  restaurantId : Uuid
  totalDueMinorUnits : Int
  menuCurrency : Currency
  vatBps : Int
  serviceChargeBps : Int
  fx : FxSnapshot
  deriving DecidableEq, Repr

/-- The part of `POST /bills`, `POST /bills/tables/:tableId/order` and `placeOrder` that comes before
the transaction. -/
def quoteBill (restaurants : Table Restaurant) (rateFor : Currency → Option FxRate)
    (callId restaurantId : Uuid) (totalDueMinorUnits : Int) : Except Err Opening := do
  let restaurant := restaurants.find? restaurantId
  let menuCurrency := (restaurant.map (·.menuCurrency)).getD .ves
  let fx ← snapshotFx rateFor menuCurrency totalDueMinorUnits
  return {
    callId, restaurantId, totalDueMinorUnits, menuCurrency,
    vatBps := (restaurant.map (·.vatBps)).getD 0
    serviceChargeBps := (restaurant.map (·.serviceChargeBps)).getD 0
    fx }

/-- The row that an opening inserts. -/
def Opening.bill (o : Opening) (billId : Uuid) : Bill where
  id := billId
  restaurantId := o.restaurantId
  status := .open
  currency := o.menuCurrency
  subtotalMinor := o.totalDueMinorUnits
  vatBps := o.vatBps
  vatMinor := 0
  serviceChargeBps := o.serviceChargeBps
  serviceChargeMinor := 0
  totalDue := o.totalDueMinorUnits
  totalDueVes := o.fx.totalDueVes
  amountPaidVes := 0
  fxRateVesPerUnit := some o.fx.rate
  fxRateSource := some o.fx.source

/-- `INSERT INTO bills …`. -/
def insertBill (billId : Uuid) (o : Opening) : Tx Err Db Unit := do
  let s ← get
  Tx.forbid (o.bill billId).violated .checkViolation
  Tx.require (0 ≤ o.serviceChargeBps ∧ o.serviceChargeBps ≤ 10000)
    (.checkViolation "bills_service_charge_bps_range")
  Tx.require (0 ≤ o.vatBps ∧ o.vatBps ≤ 10000) (.checkViolation "bills_vat_bps_range")
  Tx.require (0 < o.fx.rate) (.checkViolation "bills_fx_rate_ves_positive")
  let bills ← Tx.orThrow (s.bills.insert? (o.bill billId)) (.uniqueViolation "bills_pkey")
  set { s with bills }

/-- The transaction of `POST /bills`. -/
def postBill (billId : Uuid) (o : Opening) : Tx Err Db Unit :=
  Tx.withTransaction (insertBill billId o)

/-- `if (!billId) INSERT INTO bills …`. -/
def openFirst (billId : Uuid) : Option Opening → Tx Err Db Unit
  | some o => insertBill billId o
  | none => pure ()

/-- The transaction of `POST /bills/tables/:tableId/order` and of `placeOrder`, which opens the bill
of the table when there was none. -/
def placeOrder (restaurantId billId : Uuid) (opening : Option Opening)
    (items : List (Uuid × OrderLine)) : Tx Err Db (List BillItem × Bill) := Tx.withTransaction do
  openFirst billId opening
  let bill ← lockOpenBill restaurantId billId
  addItemsInTransaction restaurantId bill items

/-! ## The menu -/

def Product.violated (p : Product) : Option String :=
  if p.priceMinorUnits < 0 then some "menu_products_price_minor_units_check"
  else if ∃ bps ∈ p.vatBps, bps < 0 ∨ 10000 < bps then some "menu_products_vat_bps_range"
  else if p.taxCategory ≠ .taxable ∧ p.vatBps.isSome then some "menu_products_vat_only_when_taxable"
  else none

/-- `POST /menu/products`; a statement by itself is a transaction. -/
def createProduct (p : Product) : Tx Err Db Product := Tx.withTransaction do
  let s ← get
  Tx.forbid p.violated .checkViolation
  let products ← Tx.orThrow (s.products.insert? p) (.uniqueViolation "menu_products_pkey")
  set { s with products }
  return p

/-- The body of `PATCH /menu/products/:id`; the inner `none` of `vatBps` is a `null` in the body. -/
structure ProductPatch where
  name : Option String := none
  priceMinorUnits : Option Int := none
  active : Option Bool := none
  taxCategory : Option TaxCategory := none
  vatBps : Option (Option Int) := none
  deriving DecidableEq, Repr

def Product.patched (patch : ProductPatch) (p : Product) : Product :=
  { p with
    name := patch.name.getD p.name
    priceMinorUnits := patch.priceMinorUnits.getD p.priceMinorUnits
    active := patch.active.getD p.active
    taxCategory := patch.taxCategory.getD p.taxCategory
    vatBps := match patch.vatBps with
      | some vatBps => vatBps
      | none => if patch.taxCategory.getD p.taxCategory ≠ .taxable then none else p.vatBps }

/-- The `catch` of `PATCH /menu/products/:id`. -/
def asTaxConflict : Err → Err
  | .checkViolation "menu_products_vat_only_when_taxable" =>
    .api .productTaxConflict
      "Only a TAXABLE product can carry its own vatBps; change taxCategory first" []
  | err => err

/-- The product of a restaurant. -/
def Db.product? (s : Db) (restaurantId id : Uuid) : Option Product :=
  (s.products.find? id).filter (·.restaurantId = restaurantId)

/-- `PATCH /menu/products/:id`. -/
def updateProduct (restaurantId id : Uuid) (patch : ProductPatch) : Tx Err Db Product :=
    Tx.withTransaction do
  let s ← get
  let p ← Tx.orThrow (s.product? restaurantId id) (.api .productNotFound "Product not found" [])
  Tx.mapError asTaxConflict (Tx.forbid (p.patched patch).violated .checkViolation)
  set { s with products := s.products.update id (Product.patched patch) fun _ => rfl }
  return p.patched patch

/-- The foreign key of `bill_items.product_id`, `ON DELETE SET NULL`. -/
def BillItem.unlinked (productId : Uuid) (i : BillItem) : BillItem :=
  { i with productId := if i.productId = some productId then none else i.productId }

/-- `DELETE /menu/products/:id`. -/
def deleteProduct (restaurantId id : Uuid) (permanent : Bool) : Tx Err Db Uuid :=
    Tx.withTransaction do
  let s ← get
  let p ← Tx.orThrow (s.product? restaurantId id) (.api .productNotFound "Product not found" [])
  if permanent then
    set { s with
      products := s.products.deleteWhere fun r => r.id = p.id
      items := s.items.updateWhere (fun _ => true) (BillItem.unlinked p.id) fun _ => rfl }
    return p.id
  else
    set { s with
      products := s.products.update p.id (fun r => { r with active := false }) fun _ => rfl }
    return p.id

/-- `PATCH /menu/settings/currency`. -/
def setMenuCurrency (products : Table Product) (restaurants : Table Restaurant)
    (restaurantId : Uuid) (currency : Currency) : Except Err (Table Restaurant) :=
  let n := (products.rows.filter fun p =>
    p.restaurantId = restaurantId ∧ p.active ∧ p.currency ≠ currency).length
  if 0 < n then
    .error (.api .menuCurrencyMismatch
      "Active menu contains products priced in another currency. Update or deactivate them first."
      [("activeProductsInOtherCurrency", toString n)])
  else if (restaurants.find? restaurantId).isNone then
    .error (.api .restaurantNotFound "Restaurant not found" [])
  else .ok (restaurants.update restaurantId (fun r => { r with menuCurrency := currency }) fun _ => rfl)

/-- `PATCH /menu/settings/charges`. -/
def setCharges (restaurants : Table Restaurant) (restaurantId : Uuid)
    (vatBps serviceChargeBps : Option Int) : Except Err (Table Restaurant) :=
  match restaurants.find? restaurantId with
  | none => .error (.api .restaurantNotFound "Restaurant not found" [])
  | some r =>
    let vat := vatBps.getD r.vatBps
    let service := serviceChargeBps.getD r.serviceChargeBps
    if service < 0 ∨ 10000 < service then
      .error (.checkViolation "restaurants_service_charge_bps_range")
    else if vat < 0 ∨ 10000 < vat then .error (.checkViolation "restaurants_vat_bps_range")
    else .ok (restaurants.update restaurantId
      (fun r => { r with vatBps := vat, serviceChargeBps := service }) fun _ => rfl)

/-! ## What they write -/

section Specs

variable {s s' : Db} {restaurantId billId : Uuid} {o : Opening}

/-- What `quoteBill` knows: a bill of nothing costs nothing at any rate. -/
structure Opening.Valid (o : Opening) : Prop where
  zero : o.totalDueMinorUnits = 0 → o.fx.totalDueVes = 0

theorem applyRate_zero {rate : Int} {label : String} : applyRate 0 rate label = .ok 0 := by
  unfold applyRate
  rw [zero_mul, divideRound_eq_ok.mpr ⟨by decide, rfl⟩, roundHalfAway_zero (by decide)]
  rfl

theorem applyBps_zero {rate : Int} {label : String} (h : 0 ≤ rate) : applyBps 0 rate label = .ok 0 := by
  unfold applyBps
  rw [if_neg (by omega), zero_mul, divideRound_eq_ok.mpr ⟨by decide, rfl⟩,
    roundHalfAway_zero (by decide)]
  rfl

theorem quoteBill_valid {restaurants : Table Restaurant} {rateFor : Currency → Option FxRate}
    {callId : Uuid} {total : Int}
    (h : quoteBill restaurants rateFor callId restaurantId total = .ok o) :
    o.Valid ∧ o.callId = callId ∧ o.totalDueMinorUnits = total := by
  obtain ⟨fx, hfx, hret⟩ := Except.bind_eq_ok.mp h
  cases hret
  refine ⟨⟨fun hzero => ?_⟩, rfl, rfl⟩
  unfold snapshotFx at hfx
  simp only at hzero
  split at hfx
  · cases hfx
    exact hzero
  split at hfx
  · cases hfx
  · obtain ⟨scaled, -, hfx⟩ := Except.bind_eq_ok.mp hfx
    obtain ⟨totalVes, hrate, hfx⟩ := Except.bind_eq_ok.mp hfx
    cases hfx
    rw [hzero, applyRate_zero] at hrate
    exact (Except.ok.inj hrate).symm

theorem insertBill_ok {u : Unit} (h : (insertBill billId o).run s = .ok u s') :
    (o.bill billId).violated = none ∧ 0 ≤ o.serviceChargeBps ∧ 0 < o.fx.rate ∧
      ∃ bills, s.bills.insert? (o.bill billId) = some bills ∧ s' = { s with bills } := by
  unfold insertBill at h
  simp only [Tx.bind_ok, Tx.run_get, Tx.forbid_ok, Tx.require_ok, Tx.orThrow_ok, Tx.run_set] at h
  obtain ⟨_, _, ⟨rfl, rfl⟩, _, _, ⟨hv, rfl⟩, _, _, ⟨hservice, rfl⟩, _, _, ⟨-, rfl⟩, _, _, ⟨hrate, rfl⟩,
    bills, _, ⟨hins, rfl⟩, ⟨-, rfl⟩⟩ := h
  exact ⟨hv, hservice.1, hrate, bills, hins, rfl⟩

/-- A bill that is opened with a total of zero has the figures of no lines. -/
theorem Opening.itemised (ho : o.Valid) (hzero : o.totalDueMinorUnits = 0)
    (hservice : 0 ≤ o.serviceChargeBps) (hrate : 0 < o.fx.rate) : (o.bill billId).Itemised 0 where
  subtotal := hzero
  vat := rfl
  vatOf := by simp [TaxLine.rates]
  service := by
    rw [show (o.bill billId).subtotalMinor = 0 from hzero]
    exact applyBps_zero hservice
  total := by simp [Opening.bill]
  rate := if_neg (not_le.mpr hrate)
  totalVes := by
    rw [show (o.bill billId).totalDue = 0 from hzero,
      show (o.bill billId).totalDueVes = 0 from ho.zero hzero]
    exact applyRate_zero

/-- A line without the link to its product. -/
def BillItem.snapshot (i : BillItem) : BillItem := { i with productId := none }

/-- The menu changes, and of the lines at most the link to a product that is gone. -/
structure MenuOnly (s s' : Db) : Prop where
  frame : ∃ products items, s' = { s with products, items }
  items : s'.items.rows.map BillItem.snapshot = s.items.rows.map BillItem.snapshot

/-- The menu changes, and nothing else. -/
def ProductsOnly (s s' : Db) : Prop := ∃ products, s' = { s with products }

instance : Std.Refl ProductsOnly := ⟨fun s => ⟨s.products, rfl⟩⟩

theorem ProductsOnly.menuOnly (h : ProductsOnly s s') : MenuOnly s s' := by
  obtain ⟨products, rfl⟩ := h
  exact ⟨⟨products, s.items, rfl⟩, rfl⟩

theorem MenuOnly.bills (h : MenuOnly s s') : s'.bills = s.bills := by
  obtain ⟨⟨products, items, rfl⟩, -⟩ := h
  rfl

theorem MenuOnly.lines (h : MenuOnly s s') (k : Uuid) : s'.lines k = s.lines k := by
  have hlines : ∀ t : Db, t.lines k = (((t.items.rows.map BillItem.snapshot).filter fun i =>
      i.billId = k).map BillItem.taxLine : List TaxLine) := fun t => by
    rw [List.filter_map, List.map_map]
    rfl
  rw [hlines, hlines, h.items]

theorem createProduct_productsOnly {p : Product} : Tx.Keeps ProductsOnly (createProduct p) :=
  fun s r s' h => by
    unfold createProduct at h
    simp only [Tx.withTransaction_ok, Tx.bind_ok, Tx.run_get, Tx.forbid_ok, Tx.orThrow_ok, Tx.run_set,
      Tx.pure_ok] at h
    obtain ⟨_, _, ⟨rfl, rfl⟩, _, _, ⟨-, rfl⟩, products, _, ⟨-, rfl⟩, _, _, ⟨rfl, rfl⟩, -, rfl⟩ := h
    exact ⟨_, rfl⟩

theorem updateProduct_productsOnly {id : Uuid} {patch : ProductPatch} :
    Tx.Keeps ProductsOnly (updateProduct restaurantId id patch) := fun s r s' h => by
  unfold updateProduct at h
  simp only [Tx.withTransaction_ok, Tx.bind_ok, Tx.run_get, Tx.mapError_ok, Tx.forbid_ok,
    Tx.orThrow_ok, Tx.run_set, Tx.pure_ok] at h
  obtain ⟨_, _, ⟨rfl, rfl⟩, p, _, ⟨-, rfl⟩, _, _, ⟨-, rfl⟩, _, _, ⟨rfl, rfl⟩, -, rfl⟩ := h
  exact ⟨_, rfl⟩

theorem deactivateProduct_productsOnly {id : Uuid} :
    Tx.Keeps ProductsOnly (deleteProduct restaurantId id false) := fun s r s' h => by
  unfold deleteProduct at h
  simp only [Tx.withTransaction_ok, Tx.bind_ok, Tx.run_get, Tx.orThrow_ok, Bool.false_eq_true,
    if_false, Tx.run_set, Tx.pure_ok] at h
  obtain ⟨_, _, ⟨rfl, rfl⟩, p, _, ⟨-, rfl⟩, _, _, ⟨rfl, rfl⟩, -, rfl⟩ := h
  exact ⟨_, rfl⟩

theorem deleteProduct_menuOnly {id : Uuid} :
    Tx.Keeps MenuOnly (deleteProduct restaurantId id true) := fun s r s' h => by
  unfold deleteProduct at h
  simp only [Tx.withTransaction_ok, Tx.bind_ok, Tx.run_get, Tx.orThrow_ok, if_true, Tx.run_set,
    Tx.pure_ok] at h
  obtain ⟨_, _, ⟨rfl, rfl⟩, p, _, ⟨-, rfl⟩, _, _, ⟨rfl, rfl⟩, -, rfl⟩ := h
  refine ⟨⟨_, _, rfl⟩, ?_⟩
  simp only [Table.updateWhere, List.map_map]
  rfl

end Specs

end Splite
