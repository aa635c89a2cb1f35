import Splite.Auth.Sessions
import Splite.Ledger.Db
import Splite.Lib.Grouping

/-!
# Tips (`services/tips.js`)

The reports on the payments that were settled in a window: by how the money arrived, by who served the
bill, and to a server about the own bills. The report of a server also counts the payments without a
tip, which the others leave out.

* `tipsReport_tiles`, `tipsReport_sums`: windows tile, and the parts sum to the total.
* `tips_agree_iff`: what a server is told is the own row of the report exactly when every one of the
  payments has a tip.
-/

namespace Splite

/-! ## What is reported on -/

/-- A row of `payment_transitions`, with when it was made. -/
structure TimedTransition extends PaymentTransition where
  createdAt : Time
  deriving DecidableEq, Repr

/-- The columns of `bills` that say whose it is. -/
structure AttendedBill where
  id : Uuid
  restaurantId : Uuid
  servedBy : Option Uuid
  deriving DecidableEq, Repr

instance : Keyed AttendedBill Uuid := ⟨AttendedBill.id⟩

/-- The tables that the reports join; a payment is of the restaurant of its bill
(`payments_bill_same_restaurant_fk`). -/
structure TipsDb where
  transitions : List TimedTransition
  payments : Table Payment
  bills : Table AttendedBill
  users : Table User
  bill_fk : ∀ p ∈ payments, ∃ b ∈ bills, b.id = p.billId ∧ b.restaurantId = p.restaurantId

def IN_TILL_METHODS : List PaymentMethod := [.cash]

def OWED_METHODS : List PaymentMethod := [.card, .transfer, .pagoMovil, .c2p]

def PaymentMethod.text : PaymentMethod → String
  | .cash => "CASH"
  | .card => "CARD"
  | .transfer => "TRANSFER"
  | .pagoMovil => "PAGO_MOVIL"
  | .c2p => "C2P"
  | .splite => "SPLITE"
  | .other => "OTHER"

def rateBps (tips billed : Int) : Option Int :=
  if billed ≤ 0 then none else some ((tips * 10000).tdiv billed)

/-- `COUNT(*)`, `SUM(p.tip_ves)` and `SUM(p.amount_ves)` of some payments. -/
structure TipFigures where
  payments : Nat
  tipsVes : Int
  billedVes : Int
  deriving DecidableEq, Repr

def figuresOf (ps : List Payment) : TipFigures :=
  ⟨ps.length, (ps.map (·.tipVes)).sum, (ps.map (·.amountVes)).sum⟩

instance : Add TipFigures :=
  ⟨fun f g => ⟨f.payments + g.payments, f.tipsVes + g.tipsVes, f.billedVes + g.billedVes⟩⟩

@[simp] theorem figuresOf_nil : figuresOf [] = ⟨0, 0, 0⟩ := rfl

theorem figuresOf_append (ps qs : List Payment) :
    figuresOf (ps ++ qs) = figuresOf ps + figuresOf qs := by
  simp only [figuresOf, List.length_append, List.map_append, List.sum_append]
  rfl

theorem figuresOf_perm {ps qs : List Payment} (h : ps.Perm qs) : figuresOf ps = figuresOf qs := by
  rw [figuresOf, figuresOf, h.length_eq, (h.map _).sum_eq, (h.map _).sum_eq]

namespace TipsDb

variable (d : TipsDb) (restaurantId : Uuid) (a b c : Time)

/-- The payments whose transition to SUCCEEDED is in the window, and which are SUCCEEDED now:
`payment_transitions t JOIN payments p`, with all of `WHERE` but the tip. -/
def settled : List Payment :=
  (d.transitions.filter fun t => t.restaurantId = restaurantId ∧ t.toStatus = .succeeded ∧
    a ≤ t.createdAt ∧ t.createdAt < b).filterMap fun t =>
      (d.payments.find? t.paymentId).filter fun p =>
        p.restaurantId = t.restaurantId ∧ p.status = .succeeded

/-- `JOIN bills b`. -/
def billOf (p : Payment) : Option AttendedBill :=
  (d.bills.find? p.billId).filter fun b => b.restaurantId = p.restaurantId

/-- The same payments, with their bills. -/
def attended : List (Payment × AttendedBill) :=
  (d.settled restaurantId a b).filterMap fun p => (d.billOf p).map fun b => (p, b)

/-- `LEFT JOIN users u`. -/
def emailOf (b : AttendedBill) : Option String :=
  ((b.servedBy.bind d.users.find?).filter fun u => u.restaurantId = b.restaurantId).map (·.email)

end TipsDb

/-! ## The reports -/

structure ServerTips where
  userId : Option Uuid
  email : Option String
  figures : TipFigures
  tipRateBps : Option Int
  deriving DecidableEq, Repr

/-- `p.tip_ves > 0`. -/
def Payment.tipped (p : Payment) : Bool := 0 < p.tipVes

def tipsByServer (d : TipsDb) (restaurantId : Uuid) (a b : Time) : List ServerTips :=
  ((groups (fun r : Payment × AttendedBill => (r.2.servedBy, d.emailOf r.2))
    ((d.attended restaurantId a b).filter fun r => r.1.tipped)).map fun g =>
      let f := figuresOf (g.2.map Prod.fst)
      { userId := g.1.1, email := g.1.2, figures := f,
        tipRateBps := rateBps f.tipsVes f.billedVes }).mergeSort
    fun r s => s.figures.tipsVes ≤ r.figures.tipsVes

structure MyTips where
  tipsVes : Int
  billedVes : Int
  tipRateBps : Option Int
  payments : Nat
  bills : Nat
  deriving DecidableEq, Repr

def tipsForServer (d : TipsDb) (restaurantId userId : Uuid) (a b : Time) : MyTips :=
  let ps := ((d.attended restaurantId a b).filter fun r => r.2.servedBy = some userId).map Prod.fst
  let f := figuresOf ps
  { tipsVes := f.tipsVes, billedVes := f.billedVes, tipRateBps := rateBps f.tipsVes f.billedVes,
    payments := f.payments, bills := (ps.map (·.billId)).dedup.length }

structure MethodTips where
  paymentMethod : PaymentMethod
  payments : Nat
  tipsVes : Int
  deriving DecidableEq, Repr

structure TipsReport where
  totalTipsVes : Int
  billedVes : Int
  tipRateBps : Option Int
  byServer : List ServerTips
  inTillVes : Int
  owedToStaffVes : Int
  unclassifiedVes : Int
  byMethod : List MethodTips
  deriving DecidableEq, Repr

/-- The rows of the first query. -/
def tipsByMethod (d : TipsDb) (restaurantId : Uuid) (a b : Time) : List (PaymentMethod × TipFigures) :=
  ((groups (fun p : Payment => p.paymentMethod)
    ((d.settled restaurantId a b).filter Payment.tipped)).map fun g =>
      (g.1, figuresOf g.2)).mergeSort fun r s => r.1.text ≤ s.1.text

/-- The bucket that the loop adds the tips of a method to. -/
inductive Bucket where
  | inTill
  | owed
  | unclassified
  deriving DecidableEq, Repr

def PaymentMethod.bucket (m : PaymentMethod) : Bucket :=
  if IN_TILL_METHODS.contains m then .inTill
  else if OWED_METHODS.contains m then .owed
  else .unclassified

/-- What the loop over the rows has added to a bucket. -/
def inBucket (rows : List (PaymentMethod × TipFigures)) (bucket : Bucket) : Int :=
  (rows.map fun r => if r.1.bucket = bucket then r.2.tipsVes else 0).sum

def tipsReport (d : TipsDb) (restaurantId : Uuid) (a b : Time) : TipsReport :=
  let rows := tipsByMethod d restaurantId a b
  let total := (rows.map fun r => r.2.tipsVes).sum
  let billed := (rows.map fun r => r.2.billedVes).sum
  { totalTipsVes := total, billedVes := billed, tipRateBps := rateBps total billed,
    byServer := tipsByServer d restaurantId a b, inTillVes := inBucket rows .inTill,
    owedToStaffVes := inBucket rows .owed, unclassifiedVes := inBucket rows .unclassified,
    byMethod := rows.map fun r => ⟨r.1, r.2.payments, r.2.tipsVes⟩ }

/-- The row of a server, or of nobody; zeros when there is none. -/
def TipsReport.server (r : TipsReport) (userId : Option Uuid) : TipFigures :=
  ((r.byServer.find? fun s => s.userId = userId).map (·.figures)).getD ⟨0, 0, 0⟩

/-- The row of a method: payments and tips. -/
def TipsReport.method (r : TipsReport) (m : PaymentMethod) : Nat × Int :=
  ((r.byMethod.find? fun s => s.paymentMethod = m).map fun s => (s.payments, s.tipsVes)).getD (0, 0)

/-- The rate of the row of a server. -/
def TipsReport.serverRate (r : TipsReport) (userId : Option Uuid) : Option Int :=
  (r.byServer.find? fun s => s.userId = userId).bind (·.tipRateBps)

def MyTips.figures (t : MyTips) : TipFigures := ⟨t.payments, t.tipsVes, t.billedVes⟩

/-! ## What the rows are made of -/

section Rows

variable {d : TipsDb} {restaurantId : Uuid} {a b c : Time}

/-- What is settled in a window is settled before or behind any instant in it. -/
theorem settled_perm (hab : a ≤ b) (hbc : b ≤ c) : (d.settled restaurantId a c).Perm
    (d.settled restaurantId a b ++ d.settled restaurantId b c) := by
  unfold TipsDb.settled
  rw [← List.filterMap_append]
  refine List.Perm.filterMap _ (.symm ?_)
  have hfirst : (d.transitions.filter fun t => t.restaurantId = restaurantId ∧
      t.toStatus = .succeeded ∧ a ≤ t.createdAt ∧ t.createdAt < b) =
      (d.transitions.filter fun t => t.restaurantId = restaurantId ∧ t.toStatus = .succeeded ∧
        a ≤ t.createdAt ∧ t.createdAt < c).filter fun t => t.createdAt < b := by
    rw [List.filter_filter]
    refine List.filter_congr fun t _ => ?_
    rw [← Bool.decide_and, decide_eq_decide]
    constructor
    · exact fun ⟨hr, hs, ha, hb⟩ => ⟨hb, hr, hs, ha, hb.trans_le hbc⟩
    · exact fun ⟨hb, hr, hs, ha, _⟩ => ⟨hr, hs, ha, hb⟩
  have hsecond : (d.transitions.filter fun t => t.restaurantId = restaurantId ∧
      t.toStatus = .succeeded ∧ b ≤ t.createdAt ∧ t.createdAt < c) =
      (d.transitions.filter fun t => t.restaurantId = restaurantId ∧ t.toStatus = .succeeded ∧
        a ≤ t.createdAt ∧ t.createdAt < c).filter fun t => !decide (t.createdAt < b) := by
    rw [List.filter_filter]
    refine List.filter_congr fun t _ => ?_
    rw [← decide_not, ← Bool.decide_and, decide_eq_decide]
    constructor
    · exact fun ⟨hr, hs, hb, hc⟩ => ⟨not_lt.mpr hb, hr, hs, hab.trans hb, hc⟩
    · exact fun ⟨hb, hr, hs, _, hc⟩ => ⟨hr, hs, not_lt.mp hb, hc⟩
  rw [hfirst, hsecond]
  exact List.filter_append_perm _ _

theorem attended_perm (hab : a ≤ b) (hbc : b ≤ c) : (d.attended restaurantId a c).Perm
    (d.attended restaurantId a b ++ d.attended restaurantId b c) := by
  unfold TipsDb.attended
  rw [← List.filterMap_append]
  exact (settled_perm hab hbc).filterMap _

theorem of_mem_settled {p : Payment} (h : p ∈ d.settled restaurantId a b) :
    p ∈ d.payments ∧ p.restaurantId = restaurantId := by
  obtain ⟨t, ht, hp⟩ := List.mem_filterMap.mp h
  obtain ⟨hfind, hp⟩ := Option.filter_eq_some_iff.mp hp
  have ht := (List.mem_filter.mp ht).2
  simp only [decide_eq_true_eq] at ht hp
  exact ⟨Table.find?_mem hfind, hp.1.trans ht.1⟩

/-- Every payment that is settled has its bill. -/
theorem billOf_settled {p : Payment} (h : p ∈ d.settled restaurantId a b) : ∃ b, d.billOf p = some b := by
  obtain ⟨bill, hbill, hid, hrestaurant⟩ := d.bill_fk p (of_mem_settled h).1
  have hfind : d.bills.find? p.billId = some bill := Table.find?_eq_some.mpr ⟨hbill, hid⟩
  exact ⟨bill, by simp [TipsDb.billOf, hfind, Option.filter, hrestaurant]⟩

/-- So the bills leave out no payment. -/
theorem attended_payments : (d.attended restaurantId a b).map Prod.fst = d.settled restaurantId a b := by
  unfold TipsDb.attended
  have hall : ∀ p ∈ d.settled restaurantId a b, ∃ b, d.billOf p = some b := fun p => billOf_settled
  generalize d.settled restaurantId a b = ps at hall ⊢
  induction ps with
  | nil => rfl
  | cons p ps ih =>
    obtain ⟨⟨bill, hbill⟩, hps⟩ := List.forall_mem_cons.mp hall
    rw [List.filterMap_cons, hbill]
    simp only [Option.map_some, List.map_cons, List.cons.injEq, true_and]
    exact ih hps

theorem attended_restaurant {r : Payment × AttendedBill} (h : r ∈ d.attended restaurantId a b) :
    r.2.restaurantId = restaurantId := by
  obtain ⟨p, hp, hr⟩ := List.mem_filterMap.mp h
  obtain ⟨bill, hbill, rfl⟩ := Option.map_eq_some_iff.mp hr
  have := (Option.filter_eq_some_iff.mp hbill).2
  simp only [decide_eq_true_eq] at this
  exact this.trans (of_mem_settled hp).2

/-- Who served a bill has one address. -/
theorem serverKey_eq {r r' : Payment × AttendedBill} (h : r ∈ d.attended restaurantId a b)
    (h' : r' ∈ d.attended restaurantId a b) (hserver : r.2.servedBy = r'.2.servedBy) :
    (r.2.servedBy, d.emailOf r.2) = (r'.2.servedBy, d.emailOf r'.2) := by
  rw [Prod.mk.injEq]
  refine ⟨hserver, ?_⟩
  rw [TipsDb.emailOf, TipsDb.emailOf, hserver, attended_restaurant h, attended_restaurant h']

/-- The figures of a server are those of the payments with a tip on the bills of the server. -/
theorem server_eq (userId : Option Uuid) : (tipsReport d restaurantId a b).server userId =
    figuresOf ((((d.attended restaurantId a b).filter fun r => r.1.tipped).filter
      fun r => r.2.servedBy = userId).map Prod.fst) := by
  have hrows : (tipsReport d restaurantId a b).byServer.Perm _ := List.mergeSort_perm _ _
  have hone : ∀ r ∈ (d.attended restaurantId a b).filter fun r => r.1.tipped,
      ∀ r' ∈ (d.attended restaurantId a b).filter fun r => r.1.tipped,
      decide (r.2.servedBy = userId) = true → decide (r'.2.servedBy = userId) = true →
        (r.2.servedBy, d.emailOf r.2) = (r'.2.servedBy, d.emailOf r'.2) := by
    intro r hr r' hr' hserved hserved'
    rw [decide_eq_true_eq] at hserved hserved'
    exact serverKey_eq (List.mem_filter.mp hr).1 (List.mem_filter.mp hr').1
      (hserved.trans hserved'.symm)
  obtain ⟨hnone, hempty⟩ | ⟨g, hsome, hg⟩ := find?_rows hrows (fun s => s.userId = userId)
    (fun k => k.1 = userId) (fun _ => rfl) hone
  · rw [TipsReport.server, hnone, hempty]
    rfl
  · rw [TipsReport.server, hsome]
    exact congrArg (fun l => figuresOf (l.map Prod.fst)) hg

theorem tipsByMethod_perm (d : TipsDb) (restaurantId : Uuid) (a b : Time) : (tipsByMethod d restaurantId a b).Perm
    ((groups (fun p : Payment => p.paymentMethod)
      ((d.settled restaurantId a b).filter Payment.tipped)).map fun g => (g.1, figuresOf g.2)) :=
  List.mergeSort_perm _ _

/-- The figures of a method are those of the payments with a tip that came by it. -/
theorem method_eq (m : PaymentMethod) : (tipsReport d restaurantId a b).method m =
    let f := figuresOf (((d.settled restaurantId a b).filter Payment.tipped).filter
      fun p => p.paymentMethod = m)
    (f.payments, f.tipsVes) := by
  have hrows : (tipsReport d restaurantId a b).byMethod.Perm
      ((groups (fun p : Payment => p.paymentMethod)
        ((d.settled restaurantId a b).filter Payment.tipped)).map fun g =>
          ⟨g.1, (figuresOf g.2).payments, (figuresOf g.2).tipsVes⟩) := by
    have h := (tipsByMethod_perm d restaurantId a b).map
      fun r => (⟨r.1, r.2.payments, r.2.tipsVes⟩ : MethodTips)
    rw [List.map_map] at h
    exact h
  obtain ⟨hnone, hempty⟩ | ⟨g, hsome, hg⟩ := find?_rows hrows (fun s => s.paymentMethod = m)
    (fun k => k = m) (fun _ => rfl) fun p _ p' _ h h' =>
      (of_decide_eq_true h).trans (of_decide_eq_true h').symm
  · rw [TipsReport.method, hnone, hempty]
    rfl
  · rw [TipsReport.method, hsome]
    exact congrArg (fun l => ((figuresOf l).payments, (figuresOf l).tipsVes)) hg

theorem total_eq : (tipsReport d restaurantId a b).totalTipsVes =
    (figuresOf ((d.settled restaurantId a b).filter Payment.tipped)).tipsVes := by
  have h := ((tipsByMethod_perm d restaurantId a b).map fun r => r.2.tipsVes).sum_eq
  rw [List.map_map] at h
  exact h.trans (sum_all_groups _ _ _)

theorem billed_eq : (tipsReport d restaurantId a b).billedVes =
    (figuresOf ((d.settled restaurantId a b).filter Payment.tipped)).billedVes := by
  have h := ((tipsByMethod_perm d restaurantId a b).map fun r => r.2.billedVes).sum_eq
  rw [List.map_map] at h
  exact h.trans (sum_all_groups _ _ _)

/-- A bucket holds the tips that came by its methods. -/
theorem inBucket_eq (bucket : Bucket) : inBucket (tipsByMethod d restaurantId a b) bucket =
    (figuresOf (((d.settled restaurantId a b).filter Payment.tipped).filter
      fun p => p.paymentMethod.bucket = bucket)).tipsVes := by
  have h := ((tipsByMethod_perm d restaurantId a b).map fun r : PaymentMethod × TipFigures =>
    if r.1.bucket = bucket then r.2.tipsVes else 0).sum_eq
  rw [List.map_map] at h
  refine h.trans ?_
  have hsum := sum_groups (fun p : Payment => p.paymentMethod)
    ((d.settled restaurantId a b).filter Payment.tipped) (fun m => m.bucket = bucket) (·.tipVes)
  simp only [decide_eq_true_eq] at hsum
  exact hsum

/-- What a server is told of is every payment of the own bills. -/
theorem mine_eq (userId : Uuid) : (tipsForServer d restaurantId userId a b).figures =
    figuresOf (((d.attended restaurantId a b).filter fun r => r.2.servedBy = some userId).map
      Prod.fst) := rfl

/-- The rate of a row is that of its figures. -/
theorem serverRate_eq (userId : Option Uuid) : (tipsReport d restaurantId a b).serverRate userId =
    rateBps ((tipsReport d restaurantId a b).server userId).tipsVes
      ((tipsReport d restaurantId a b).server userId).billedVes := by
  unfold TipsReport.serverRate TipsReport.server
  cases hfind : (tipsReport d restaurantId a b).byServer.find? fun s => s.userId = userId with
  | none => rfl
  | some s =>
    obtain ⟨g, -, rfl⟩ := List.mem_map.mp (List.mem_mergeSort.mp (List.mem_of_find?_eq_some hfind))
    rfl

theorem mem_attended {p : Payment} {bill : AttendedBill} : (p, bill) ∈ d.attended restaurantId a b ↔
    ∃ t ∈ d.transitions, (t.restaurantId = restaurantId ∧ t.toStatus = .succeeded ∧
      a ≤ t.createdAt ∧ t.createdAt < b) ∧ (p ∈ d.payments ∧ p.id = t.paymentId ∧
        p.restaurantId = t.restaurantId ∧ p.status = .succeeded) ∧
      bill ∈ d.bills ∧ bill.id = p.billId ∧ bill.restaurantId = p.restaurantId := by
  simp only [TipsDb.attended, TipsDb.settled, TipsDb.billOf, List.mem_filterMap, List.mem_filter,
    Option.filter_eq_some_iff, Option.map_eq_some_iff, Table.find?_eq_some, decide_eq_true_eq,
    Prod.mk.injEq]
  constructor
  · rintro ⟨p', ⟨t, ⟨ht, hwindow⟩, ⟨hp, hid⟩, hstatus⟩, bill', ⟨⟨hbill, hbillId⟩, hrestaurant⟩, rfl, rfl⟩
    exact ⟨t, ht, hwindow, ⟨hp, hid, hstatus⟩, hbill, hbillId, hrestaurant⟩
  · rintro ⟨t, ht, hwindow, ⟨hp, hid, hstatus⟩, hbill, hbillId, hrestaurant⟩
    exact ⟨p, ⟨t, ⟨ht, hwindow⟩, ⟨hp, hid⟩, hstatus⟩, bill, ⟨⟨hbill, hbillId⟩, hrestaurant⟩, rfl, rfl⟩

end Rows

/-! ## What agrees -/

/-- The report of a window is those of its two halves together. -/
structure TipsReport.Tiles (r r₁ r₂ : TipsReport) : Prop where
  total : r.totalTipsVes = r₁.totalTipsVes + r₂.totalTipsVes
  billed : r.billedVes = r₁.billedVes + r₂.billedVes
  inTill : r.inTillVes = r₁.inTillVes + r₂.inTillVes
  owed : r.owedToStaffVes = r₁.owedToStaffVes + r₂.owedToStaffVes
  unclassified : r.unclassifiedVes = r₁.unclassifiedVes + r₂.unclassifiedVes
  method : ∀ m, r.method m = r₁.method m + r₂.method m
  server : ∀ userId, r.server userId = r₁.server userId + r₂.server userId

/-- The parts of a report sum to its total. -/
structure TipsReport.Sums (r : TipsReport) : Prop where
  buckets : r.inTillVes + r.owedToStaffVes + r.unclassifiedVes = r.totalTipsVes
  servers : (r.byServer.map (·.figures.tipsVes)).sum = r.totalTipsVes
  billed : (r.byServer.map (·.figures.billedVes)).sum = r.billedVes

/-- The reports of one window on one server agree. -/
structure TipsAgree (d : TipsDb) (restaurantId userId : Uuid) (a c : Time) : Prop where
  tiles : ∀ b, a ≤ b → b ≤ c → (tipsReport d restaurantId a c).Tiles (tipsReport d restaurantId a b)
    (tipsReport d restaurantId b c)
  mine : ∀ b, a ≤ b → b ≤ c → (tipsForServer d restaurantId userId a c).figures =
    (tipsForServer d restaurantId userId a b).figures + (tipsForServer d restaurantId userId b c).figures
  sums : (tipsReport d restaurantId a c).Sums
  row : (tipsForServer d restaurantId userId a c).figures =
    (tipsReport d restaurantId a c).server (some userId)
  rate : (tipsForServer d restaurantId userId a c).tipRateBps =
    (tipsReport d restaurantId a c).serverRate (some userId)

/-- Every payment that is settled in the window on a bill of the server has a tip. -/
def AllTipped (d : TipsDb) (restaurantId userId : Uuid) (a c : Time) : Prop :=
  ∀ t ∈ d.transitions, t.restaurantId = restaurantId → t.toStatus = .succeeded → a ≤ t.createdAt →
    t.createdAt < c → ∀ p ∈ d.payments, p.id = t.paymentId → p.restaurantId = t.restaurantId →
      p.status = .succeeded → ∀ b ∈ d.bills, b.id = p.billId → b.restaurantId = p.restaurantId →
        b.servedBy = some userId → p.tipVes ≠ 0

section Agreement

variable {d : TipsDb} {restaurantId userId : Uuid} {a b c : Time}

/-- Figures over a window are those of its two halves, whichever payments they are of. -/
theorem figures_tile (hab : a ≤ b) (hbc : b ≤ c) (q : Payment → Bool) :
    figuresOf ((d.settled restaurantId a c).filter q) =
      figuresOf ((d.settled restaurantId a b).filter q) +
        figuresOf ((d.settled restaurantId b c).filter q) := by
  rw [figuresOf_perm ((settled_perm hab hbc).filter q), List.filter_append, figuresOf_append]

theorem attended_figures_tile (hab : a ≤ b) (hbc : b ≤ c) (q : Payment × AttendedBill → Bool) :
    figuresOf (((d.attended restaurantId a c).filter q).map Prod.fst) =
      figuresOf (((d.attended restaurantId a b).filter q).map Prod.fst) +
        figuresOf (((d.attended restaurantId b c).filter q).map Prod.fst) := by
  rw [figuresOf_perm (((attended_perm hab hbc).filter q).map _), List.filter_append, List.map_append,
    figuresOf_append]

theorem inBucket_tile (hab : a ≤ b) (hbc : b ≤ c) (bucket : Bucket) :
    inBucket (tipsByMethod d restaurantId a c) bucket =
      inBucket (tipsByMethod d restaurantId a b) bucket +
        inBucket (tipsByMethod d restaurantId b c) bucket := by
  rw [inBucket_eq, inBucket_eq, inBucket_eq]
  simp only [List.filter_filter, figures_tile hab hbc]
  rfl

/-- Consecutive windows tile. -/
theorem tipsReport_tiles (hab : a ≤ b) (hbc : b ≤ c) : (tipsReport d restaurantId a c).Tiles
    (tipsReport d restaurantId a b) (tipsReport d restaurantId b c) where
  total := by
    rw [total_eq, total_eq, total_eq, figures_tile hab hbc]
    rfl
  billed := by
    rw [billed_eq, billed_eq, billed_eq, figures_tile hab hbc]
    rfl
  inTill := inBucket_tile hab hbc .inTill
  owed := inBucket_tile hab hbc .owed
  unclassified := inBucket_tile hab hbc .unclassified
  method m := by
    rw [method_eq, method_eq, method_eq]
    simp only [List.filter_filter, figures_tile hab hbc]
    rfl
  server userId := by
    rw [server_eq, server_eq, server_eq]
    simp only [List.filter_filter, attended_figures_tile hab hbc]

/-- A method is in one bucket. -/
theorem buckets_sum (rows : List (PaymentMethod × TipFigures)) :
    inBucket rows .inTill + inBucket rows .owed + inBucket rows .unclassified =
      (rows.map fun r => r.2.tipsVes).sum := by
  unfold inBucket
  rw [← List.sum_map_add, ← List.sum_map_add]
  congr 1
  refine List.map_congr_left fun r _ => ?_
  cases r.1.bucket <;> simp

/-- The payments behind the rows of the servers are those of the total. -/
theorem attended_tipped : ((d.attended restaurantId a c).filter fun r => r.1.tipped).map Prod.fst =
    (d.settled restaurantId a c).filter Payment.tipped := by
  rw [← attended_payments, List.filter_map]
  rfl

theorem sum_byServer (f : Payment → Int) (g : TipFigures → Int)
    (hg : ∀ ps, g (figuresOf ps) = (ps.map f).sum) :
    ((tipsByServer d restaurantId a c).map fun s => g s.figures).sum =
      g (figuresOf ((d.settled restaurantId a c).filter Payment.tipped)) := by
  have h := ((List.mergeSort_perm ((groups (fun r : Payment × AttendedBill =>
      (r.2.servedBy, d.emailOf r.2))
    ((d.attended restaurantId a c).filter fun r => r.1.tipped)).map fun g =>
      let f := figuresOf (g.2.map Prod.fst)
      { userId := g.1.1, email := g.1.2, figures := f,
        tipRateBps := rateBps f.tipsVes f.billedVes : ServerTips })
    fun r s => s.figures.tipsVes ≤ r.figures.tipsVes).map fun s => g s.figures).sum_eq
  refine h.trans ?_
  rw [List.map_map, hg, ← attended_tipped, List.map_map, ← sum_all_groups
    (fun r : Payment × AttendedBill => (r.2.servedBy, d.emailOf r.2))]
  congr 1
  refine List.map_congr_left fun grp _ => ?_
  simp only [Function.comp_apply, hg, List.map_map]

/-- The parts of a report sum to its total. -/
theorem tipsReport_sums : (tipsReport d restaurantId a c).Sums where
  buckets := buckets_sum _
  servers := by
    rw [total_eq]
    exact sum_byServer (·.tipVes) (·.tipsVes) fun _ => rfl
  billed := by
    rw [billed_eq]
    exact sum_byServer (·.amountVes) (·.billedVes) fun _ => rfl

/-- Without its tipless payments a list is as long as before exactly when it has none. -/
theorem row_iff (rows : List (Payment × AttendedBill)) :
    figuresOf (rows.map Prod.fst) = figuresOf ((rows.filter fun r => r.1.tipped).map Prod.fst) ↔
      ∀ r ∈ rows, r.1.tipVes ≠ 0 := by
  have hpos : ∀ p : Payment, p.tipped = true ↔ p.tipVes ≠ 0 := by
    intro p
    rw [Payment.tipped, decide_eq_true_eq]
    have := p.tip_nonneg
    omega
  constructor
  · intro h r hr
    have hlength := congrArg TipFigures.payments h
    simp only [figuresOf, List.length_map] at hlength
    exact (hpos r.1).mp (List.length_filter_eq_length_iff.mp hlength.symm r hr)
  · intro h
    rw [List.filter_eq_self.mpr fun r hr => (hpos r.1).mpr (h r hr)]

/-- The reports of a window tile and sum, and what a server is told is the own row exactly when every
payment of the own bills in it has a tip. -/
theorem tips_agree_iff (d : TipsDb) (restaurantId userId : Uuid) (a c : Time) :
    TipsAgree d restaurantId userId a c ↔ AllTipped d restaurantId userId a c := by
  have hrow : (tipsForServer d restaurantId userId a c).figures =
      (tipsReport d restaurantId a c).server (some userId) ↔ AllTipped d restaurantId userId a c := by
    rw [mine_eq, server_eq, List.filter_comm, row_iff]
    constructor
    · intro h t ht hrid hto ha hc p hp hid hprid hstatus b hb hbill hbrid hserved
      exact h (p, b) (List.mem_filter.mpr ⟨mem_attended.mpr
        ⟨t, ht, ⟨hrid, hto, ha, hc⟩, ⟨hp, hid, hprid, hstatus⟩, hb, hbill, hbrid⟩, by simpa using hserved⟩)
    · rintro h ⟨p, b⟩ hr
      obtain ⟨hmem, hserved⟩ := List.mem_filter.mp hr
      obtain ⟨t, ht, ⟨hrid, hto, ha, hc⟩, ⟨hp, hid, hprid, hstatus⟩, hb, hbill, hbrid⟩ :=
        mem_attended.mp hmem
      exact h t ht hrid hto ha hc p hp hid hprid hstatus b hb hbill hbrid (by simpa using hserved)
  rw [← hrow]
  constructor
  · exact TipsAgree.row
  · intro h
    refine ⟨fun b => tipsReport_tiles, fun b hab hbc => ?_, tipsReport_sums, h, ?_⟩
    · rw [mine_eq, mine_eq, mine_eq, attended_figures_tile hab hbc]
    · rw [serverRate_eq, ← h]
      rfl

end Agreement

/-! ## A table of two -/

/-- Two payments of one bill, of which the second one has no tip. -/
def tableOfTwo : TipsDb where
  transitions := [⟨⟨1, 1, none, .succeeded, none⟩, 10⟩, ⟨⟨2, 1, none, .succeeded, none⟩, 20⟩]
  payments := ⟨[⟨1, 1, 7, 5000, 500, .succeeded, .cash, none, none, none, none, none, 10, by decide,
      by decide⟩,
    ⟨2, 1, 7, 5000, 0, .succeeded, .card, none, none, none, none, none, 20, by decide, by decide⟩],
    by decide⟩
  bills := ⟨[⟨7, 1, some 3⟩], by decide⟩
  users := ⟨[⟨3, 1, "ana@example.com", "WAITER", true, none⟩], by decide⟩
  bill_fk := by
    intro p hp
    refine ⟨⟨7, 1, some 3⟩, List.mem_singleton.mpr rfl, ?_⟩
    rcases List.mem_pair.mp hp with rfl | rfl <;> exact ⟨rfl, rfl⟩

/-- The report has one payment of the server, and the server is told of two. -/
theorem tipless_disagrees : ¬TipsAgree tableOfTwo 1 3 0 100 := by
  intro h
  have hrow := h.row
  rw [server_eq] at hrow
  exact absurd hrow (by decide +kernel)

end Splite
