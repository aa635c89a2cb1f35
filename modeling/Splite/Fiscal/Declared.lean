import Splite.Fiscal.Bags
import Splite.Fiscal.Claimed

/-!
# What a bill has left to declare

`stateForBill` takes what the invoices of a bill declare, rate by rate, off what its lines come to now.

* `FiscalWorld.Accounted.step`: every draft is whole, and of a bill that was not opened with a fixed
  total.
* `declaresRest_iff`: the law holds of a bill when its lines back what its invoices declare.
* `declared_law_iff`: a run keeps the law exactly when each of its steps sustains it.
-/

namespace Splite

/-- No bag is overdrawn, and what is outstanding is what is due less the totals of the invoices. -/
def DeclaresRest (s : Db) (f : FiscalDb) (b : Bill) : Prop :=
  ∃ left ∈ (stateForBill s f b.restaurantId b.id).toOption, left.state.Nonneg ∧
    outstandingOf left.state = b.totalDueVes - ((f.invoicesOf b.id).map (·.totalMinor)).sum

/-- A bill without lines is due nothing, and what the lines come to covers the invoices. -/
def Backed (s : Db) (f : FiscalDb) (b : Bill) : Prop :=
  (s.itemsOf b.id = [] → b.totalDueVes = 0) ∧
    ∀ state ∈ (initialState s b).toOption, state.Covers (f.invoicesOf b.id)

/-- What the invoices of its bill leave covers a document. -/
def HasRoom (s : Db) (f : FiscalDb) (d : FiscalDocument) : Prop :=
  ∀ b ∈ s.bills, b.id = d.billId → ∀ state ∈ (initialState s b).toOption,
    (state.less (f.invoicesOf b.id)).Covers [d]

/-- A step of the restaurant leaves every bill backed; a document that is written had room. -/
def Sustains (w : FiscalWorld) : FiscalOp → Prop
  | .floor op => ∀ b ∈ (op.step w.floor).1.db.bills, Backed (op.step w.floor).1.db w.fiscal b
  | op => ∀ d ∈ (op.step w).1.fiscal.documents, d ∉ w.fiscal.documents → HasRoom w.floor.db w.fiscal d

/-- Behind a step the law holds of every bill. -/
def KeepsLaw (w : FiscalWorld) (op : FiscalOp) : Prop :=
  ∀ b ∈ (invoicing.step w op).1.floor.db.bills,
    DeclaresRest (invoicing.step w op).1.floor.db (invoicing.step w op).1.fiscal b

instance (g : FiscalGroup) : Decidable g.Nonneg :=
  decidable_of_iff (0 ≤ g.baseMinor ∧ 0 ≤ g.vatMinor) ⟨fun ⟨hb, hv⟩ => ⟨hb, hv⟩, fun h => ⟨h.base, h.vat⟩⟩

instance (state : FiscalState) : Decidable state.Nonneg :=
  decidable_of_iff ((∀ g ∈ state.groups, g.Nonneg) ∧ 0 ≤ state.serviceMinor)
    ⟨fun ⟨hg, hs⟩ => ⟨hg, hs⟩, fun h => ⟨h.groups, h.service⟩⟩

instance (s : Db) (f : FiscalDb) (b : Bill) : Decidable (DeclaresRest s f b) :=
  inferInstanceAs (Decidable (∃ left ∈ _, _))

instance (s : Db) (f : FiscalDb) (b : Bill) : Decidable (Backed s f b) :=
  inferInstanceAs (Decidable (_ ∧ _))

instance (s : Db) (f : FiscalDb) (d : FiscalDocument) : Decidable (HasRoom s f d) :=
  inferInstanceAs (Decidable (∀ b ∈ s.bills, _))

instance (w : FiscalWorld) (op : FiscalOp) : Decidable (KeepsLaw w op) :=
  inferInstanceAs (Decidable (∀ b ∈ (invoicing.step w op).1.floor.db.bills, _))

instance (w : FiscalWorld) (op : FiscalOp) : Decidable (Sustains w op) := by
  unfold Sustains
  split <;> infer_instance

section World

variable {w : FiscalWorld} {op : FiscalOp} {args : IssueRequest} {draft : InvoiceDraft}

/-- Every draft is whole, and of a bill that was not opened with a fixed total. -/
structure FiscalWorld.Accounted (w : FiscalWorld) : Prop where
  sound : w.Sound
  floor : w.floor.Sound fun _ => False
  quoted : w.floor.Quoted
  drafts : Carries (fun _ billId draft => draft.Whole ∧ w.floor.db.Ordered billId) w

theorem Carries.imp {Q Q' : Uuid → Uuid → InvoiceDraft → Prop} (h : Carries Q w)
    (himp : ∀ paymentId billId draft, Q paymentId billId draft → Q' paymentId billId draft) :
    Carries Q' w where
  built := fun c hc t ht => himp _ _ _ (h.built c hc t ht)
  read := fun c hc read hread =>
    let ⟨draft, hstores, hQ⟩ := h.read c hc read hread
    ⟨draft, hstores, himp _ _ _ hQ⟩
  request := fun q hq =>
    let ⟨draft, hstores, hQ⟩ := h.request q hq
    ⟨draft, hstores, himp _ _ _ hQ⟩
  document := fun d hd => ⟨(h.document d hd).1, himp _ _ _ (h.document d hd).2⟩

/-- The documents of a bill are whole. -/
theorem FiscalWorld.Accounted.whole (h : w.Accounted) {billId : Uuid} :
    ∀ d ∈ w.fiscal.invoicesOf billId, d.Whole := fun d hd =>
  (h.drafts.document d (List.mem_filter.mp hd).1).2.1

theorem FiscalWorld.Accounted.of_builds (h : w.Accounted) (hbuilds : op.builds? w = some (args, draft)) :
    draft.Whole ∧ w.floor.db.Ordered args.billId := by
  obtain ⟨tableName, prepared, hprepared, rfl⟩ := prepared_of_builds hbuilds
  obtain ⟨state, payment, hfrom⟩ := prepareDraft_ok hprepared
  obtain ⟨_, _, _, _, hdraft⟩ := hfrom.draft
  refine ⟨buildDraft_whole payment.amount_pos hdraft, ?_⟩
  obtain ⟨hfind, -⟩ := bill?_eq_some.mp hfrom.found
  have hmem := Table.find?_mem hfind
  have hid : prepared.bill.id = args.billId := Table.find?_key hfind
  refine ⟨prepared.bill, hmem, hid, fun ⟨hnone, hpos⟩ => ?_⟩
  -- Without lines there is no bag, and nothing is outstanding.
  have hinitial := hfrom.initial
  rw [initialState_nil h.quoted.db hmem (hid ▸ hnone)] at hinitial
  obtain rfl := Except.ok.inj hinitial
  have hfits := hfrom.fits
  have hservice : 0 ≤ declaredService (w.fiscal.invoicesOf args.billId) := by
    refine List.sum_nonneg fun x hx => ?_
    obtain ⟨d, hd, rfl⟩ := List.mem_map.mp hx
    exact (h.whole d hd).service
  simp only [outstandingOf, FiscalState.less, List.map_nil, List.sum_nil] at hfits
  have := payment.amount_pos
  omega

/-- Only a step of the restaurant changes a bill or a line. -/
theorem FiscalOp.step_floor (w : FiscalWorld) (op : FiscalOp) : (∃ floorOp, op = .floor floorOp) ∨
    ∃ splits shares, (op.step w).1.floor = { w.floor with
      ledger := { w.floor.ledger with db := { w.floor.db with splits, shares } } } := by
  have hperform : ∀ callId x next, (w.perform callId x next).1.floor = w.floor := by
    intro callId x next
    unfold FiscalWorld.perform
    split
    · exact (goOn_rest _ callId next).2.1
    · rfl
  have hopens : ∀ call, (w.opens call).floor = w.floor := by
    intro call
    unfold FiscalWorld.opens
    split <;> rfl
  have hsame : (op.step w).1.floor = w.floor → ∃ splits shares, (op.step w).1.floor = { w.floor with
      ledger := { w.floor.ledger with db := { w.floor.db with splits, shares } } } :=
    fun h => ⟨w.floor.db.splits, w.floor.db.shares, h⟩
  cases op with
  | floor floorOp => exact .inl ⟨floorOp, rfl⟩
  | agree splits shares items => exact .inr ⟨splits, shares, rfl⟩
  | configure series issuers => exact .inr (hsame rfl)
  | prepare callId requestId args tableName =>
    refine .inr (hsame ?_)
    simp only [FiscalOp.step]
    split
    · exact hopens _
    · rfl
  | resolve callId restaurantId requestId =>
    refine .inr (hsame ?_)
    simp only [FiscalOp.step]
    split
    · split
      · exact hopens _
      · rfl
    · rfl
  | request callId nonce =>
    refine .inr (hsame ?_)
    simp only [FiscalOp.step]
    split
    · exact hperform _ _ _
    · rfl
  | send callId =>
    refine .inr (hsame ?_)
    simp only [FiscalOp.step]
    split
    · exact hperform _ _ _
    · rfl
  | reply callId r =>
    refine .inr (hsame ?_)
    simp only [FiscalOp.step]
    split
    · exact (goOn_rest _ callId _).2.1
    · rfl
    · rfl
  | record callId invoiceId deliveryId now =>
    refine .inr (hsame ?_)
    simp only [FiscalOp.step]
    split
    · exact hperform _ _ _
    · rfl
  | die callId => exact .inr (hsame rfl)

theorem FiscalWorld.Accounted.step (h : w.Accounted) (op : FiscalOp) :
    (invoicing.step w op).1.Accounted := by
  have hdrafts : Carries (fun _ billId draft => draft.Whole ∧ w.floor.db.Ordered billId)
      (invoicing.step w op).1 := h.drafts.step h.sound fun args draft hbuilds => h.of_builds hbuilds
  have hsound := h.sound.step op
  rcases op.step_floor w with ⟨floorOp, rfl⟩ | ⟨splits, shares, hfloor⟩
  · refine ⟨hsound, h.floor.step floorOp fun _ hz => hz.elim, h.quoted.step floorOp, ?_⟩
    exact hdrafts.imp fun _ _ _ ⟨hwhole, hordered⟩ => ⟨hwhole, hordered.step floorOp⟩
  · have hderived := h.floor.derived
    refine ⟨hsound, ?_, ?_, ?_⟩
    · show (op.step w).1.floor.Sound _
      rw [hfloor]
      exact ⟨⟨hderived.checked, hderived.owned, hderived.valid, hderived.figures⟩, h.floor.openings⟩
    · show (op.step w).1.floor.Quoted
      rw [hfloor]
      exact ⟨⟨h.quoted.db.identity, h.quoted.db.unserved⟩, h.quoted.openings⟩
    · have hdb : ∀ k, (op.step w).1.floor.db.Ordered k ↔ w.floor.db.Ordered k := fun k => by
        rw [hfloor]
        exact Iff.rfl
      exact hdrafts.imp fun _ _ _ ⟨hwhole, hordered⟩ => ⟨hwhole, (hdb _).mpr hordered⟩

theorem FiscalWorld.Accounted.start {floor : Floor} (h : floor.Fresh) (registry : List String)
    (series : Table FiscalSeries) (issuers : Table Issuer) (splitItems : List SplitItem) :
    (FiscalWorld.start floor registry series issuers splitItems).Accounted :=
  ⟨.start .., h.sound _, h.quoted, .start ..⟩

/-- The bags of a bill. -/
theorem FiscalWorld.Accounted.holds (h : w.Accounted) {b : Bill} (hb : b ∈ w.floor.db.bills) :
    ∃ state total, initialState w.floor.db b = .ok state ∧ state.Holds total := by
  rcases h.floor.derived.figures b hb with hitemised | ⟨hnone, -, -⟩
  · obtain ⟨state, hinitial, hholds⟩ := initialState_ok h.floor.derived h.quoted.db hb hitemised
    exact ⟨state, _, hinitial, hholds⟩
  · exact ⟨_, 0, initialState_nil h.quoted.db hb hnone, by decide, List.nodup_nil, rfl⟩

/-- The law holds of a bill exactly when its lines back what its invoices declare. -/
theorem declaresRest_iff (h : w.Accounted) {b : Bill} (hb : b ∈ w.floor.db.bills) :
    DeclaresRest w.floor.db w.fiscal b ↔ Backed w.floor.db w.fiscal b := by
  have hfind : w.floor.db.bill? b.restaurantId b.id = some b :=
    bill?_eq_some.mpr ⟨Table.find?_eq_some.mpr ⟨hb, rfl⟩, rfl⟩
  have hstate : ∀ state, initialState w.floor.db b = .ok state →
      (DeclaresRest w.floor.db w.fiscal b ↔ (state.less (w.fiscal.invoicesOf b.id)).Nonneg ∧
        outstandingOf (state.less (w.fiscal.invoicesOf b.id)) =
          b.totalDueVes - ((w.fiscal.invoicesOf b.id).map (·.totalMinor)).sum) := by
    intro state hinitial
    simp [DeclaresRest, stateForBill, hfind, hinitial, Except.ofOption, pure, Except.pure, Except.toOption]
  rcases h.floor.derived.figures b hb with hitemised | ⟨hnone, hpos, -⟩
  · obtain ⟨state, hinitial, hholds⟩ := initialState_ok h.floor.derived h.quoted.db hb hitemised
    have hempty : w.floor.db.itemsOf b.id = [] → b.totalDueVes = 0 := by
      intro hnil
      have hlines : w.floor.db.lines b.id = 0 := by simp [Db.lines, hnil]
      rw [hlines] at hitemised
      rw [applyRate_eq_ok hitemised.totalVes, hitemised.nothing_due, zero_mul,
        roundHalfAway_zero (by decide)]
    rw [hstate state hinitial, ← hholds.total,
      FiscalState.less_iff hholds.nonneg hholds.distinct h.whole]
    simp only [Backed, hinitial, Except.toOption, Option.mem_def, Option.some.injEq, forall_eq']
    exact (and_iff_right hempty).symm
  · -- The bill was opened with a fixed total: nothing was ever invoiced of it.
    have hinitial := initialState_nil h.quoted.db hb hnone
    have hinvoices : w.fiscal.invoicesOf b.id = [] := by
      refine List.eq_nil_iff_forall_not_mem.mpr fun d hd => ?_
      obtain ⟨hmem, hof⟩ := List.mem_filter.mp hd
      obtain ⟨b', hb', hid, hordered⟩ := (h.drafts.document d hmem).2.2
      have hof : d.billId = b.id := (of_decide_eq_true hof).1
      obtain rfl : b' = b := Table.eq_of_key hb' hb (hid.trans hof)
      exact hordered ⟨hof ▸ hnone, hpos⟩
    have hitems : w.floor.db.itemsOf b.id = [] := by
      simpa [Db.lines] using hnone
    rw [hstate _ hinitial, Backed, hinitial, hinvoices, hitems]
    simp only [Except.toOption, Option.mem_def, Option.some.injEq, forall_eq', forall_const]
    have hcovers : (⟨[], 0⟩ : FiscalState).Covers [] := by decide
    have hnonneg : ((⟨[], 0⟩ : FiscalState).less []).Nonneg := by decide
    have hout : outstandingOf ((⟨[], 0⟩ : FiscalState).less []) = 0 := by decide
    rw [hout, and_iff_right hnonneg, and_iff_left hcovers, List.map_nil, List.sum_nil, sub_zero, eq_comm]

/-- A step writes one document at most. -/
theorem FiscalOp.step_documents (w : FiscalWorld) (op : FiscalOp) :
    (op.step w).1.fiscal.documents = w.fiscal.documents ∨
      ∃ d, w.fiscal.documents.insert? d = some (op.step w).1.fiscal.documents ∧
        d.documentType = .invoice := by
  have hs := op.steps w
  generalize (op.step w).1 = w' at hs
  have hinvoice : ∀ {i s s' invoiceId now result d}, Persisted s invoiceId now i result d s' →
      d.documentType = .invoice := fun hp => by
    obtain ⟨_, rfl, -⟩ := hp.row
    rfl
  cases hs with
  | aside _ _ _ hdocuments _ => exact .inl hdocuments
  | opened => exact .inl rfl
  | ended => exact .inl rfl
  | heard => exact .inl rfl
  | @wrote c fiscal next _ _ _ hw =>
    obtain ⟨callId, phase⟩ := c
    rw [(goOn_rest { w with fiscal } callId next).1]
    cases hw with
    | requested _ _ hdocuments => exact .inl hdocuments
    | sent _ hdocuments => exact .inl hdocuments
    | unissued _ _ hdocuments => exact .inl hdocuments
    | issued _ hp => exact .inr ⟨_, hp.inserted, hinvoice hp⟩
    | issuedLate _ hp => exact .inr ⟨_, hp.inserted, hinvoice hp⟩
    | failed _ hdocuments => exact .inl hdocuments

theorem invoicesOf_congr {f f' : FiscalDb} (h : f'.documents = f.documents) (billId : Uuid) :
    f'.invoicesOf billId = f.invoicesOf billId := by
  rw [FiscalDb.invoicesOf, h, FiscalDb.invoicesOf]

theorem invoicesOf_insert {f f' : FiscalDb} {d : FiscalDocument}
    (hins : f.documents.insert? d = some f'.documents) (htype : d.documentType = .invoice)
    (billId : Uuid) :
    f'.invoicesOf billId = f.invoicesOf billId ++ if d.billId = billId then [d] else [] := by
  rw [FiscalDb.invoicesOf, (Table.insert?_eq_some.mp hins).2, List.filter_append, FiscalDb.invoicesOf]
  congr 1
  simp [List.filter_singleton, htype]

/-- Where every bill is backed, a step sustains that exactly when every bill is backed behind it. -/
theorem sustains_iff (h : w.Accounted) (hbacked : ∀ b ∈ w.floor.db.bills, Backed w.floor.db w.fiscal b)
    (op : FiscalOp) : Sustains w op ↔ ∀ b ∈ (invoicing.step w op).1.floor.db.bills,
      Backed (invoicing.step w op).1.floor.db (invoicing.step w op).1.fiscal b := by
  by_cases hop : ∃ floorOp, op = .floor floorOp
  · obtain ⟨floorOp, rfl⟩ := hop
    exact Iff.rfl
  obtain ⟨splits, shares, hfloor⟩ := (op.step_floor w).resolve_left hop
  have hsustains : Sustains w op ↔ ∀ d ∈ (op.step w).1.fiscal.documents, d ∉ w.fiscal.documents →
      HasRoom w.floor.db w.fiscal d := by
    cases op <;> first | exact Iff.rfl | exact absurd ⟨_, rfl⟩ hop
  have hafter : (∀ b ∈ (op.step w).1.floor.db.bills,
      Backed (op.step w).1.floor.db (op.step w).1.fiscal b) ↔
      ∀ b ∈ w.floor.db.bills, Backed w.floor.db (op.step w).1.fiscal b := by
    rw [hfloor]
    exact Iff.rfl
  refine (hsustains.trans ?_).trans hafter.symm
  rcases op.step_documents w with hdocuments | ⟨d, hins, htype⟩
  · refine iff_of_true (fun d hd hnew => absurd (hdocuments ▸ hd) hnew) fun b hb => ?_
    rw [Backed, invoicesOf_congr hdocuments]
    exact hbacked b hb
  · have hmem : ∀ e, e ∈ (op.step w).1.fiscal.documents ↔ e ∈ w.fiscal.documents ∨ e = d :=
      fun e => Table.mem_insert? hins
    have hnew : d ∉ w.fiscal.documents := fun hd => (Table.insert?_eq_some.mp hins).1 d hd rfl
    have hone : (∀ e ∈ (op.step w).1.fiscal.documents, e ∉ w.fiscal.documents →
        HasRoom w.floor.db w.fiscal e) ↔ HasRoom w.floor.db w.fiscal d := by
      refine ⟨fun hall => hall d ((hmem d).mpr (.inr rfl)) hnew, fun hroom e he hfresh => ?_⟩
      obtain rfl := ((hmem e).mp he).resolve_left hfresh
      exact hroom
    rw [hone]
    refine forall₂_congr fun b hb => ?_
    obtain ⟨hlines, hcovers⟩ := hbacked b hb
    rw [Backed, invoicesOf_insert hins htype, and_iff_right hlines]
    obtain ⟨state, total, hinitial, hholds⟩ := h.holds hb
    rw [hinitial] at hcovers ⊢
    simp only [Except.toOption, Option.mem_def, Option.some.injEq, forall_eq'] at hcovers ⊢
    by_cases hof : d.billId = b.id
    · rw [if_pos hof, FiscalState.covers_concat hholds.nonneg hholds.distinct h.whole hcovers]
      exact forall_prop_of_true hof.symm
    · rw [if_neg hof, List.append_nil]
      exact iff_of_true (fun hid => absurd hid.symm hof) hcovers

end World

theorem nodup_one_restaurant : (([⟨1, .ves, 1600, 0⟩] : List Restaurant).map Keyed.key).Nodup := by decide

/-- A menu in bolívares, of which the bread is exempt. -/
def tavern : Floor where
  ledger := .idle { evening with
    bills := ∅
    products :=
      ⟨[⟨50, 1, "Pabellón", 10000, .ves, true, .taxable, none⟩,
        ⟨51, 1, "Pan", 30000, .ves, true, .exempt, none⟩], by decide⟩ }
  restaurants := ⟨[⟨1, .ves, 1600, 0⟩], nodup_one_restaurant⟩
  rateFor := fun _ => none
  openings := []

theorem tavern_fresh : tavern.Fresh := ⟨rfl, rfl, rfl⟩

/-- Half of a bill is paid and invoiced. -/
def halfInvoiced : List FiscalOp :=
  [ .floor (.quoteBill 90 1 0),
    .floor (.postBill 90 10),
    .floor (.placeOrder none 1 10 [(60, ⟨50, 1⟩), (61, ⟨51, 1⟩)]),
    .floor (.ledger (.processSplitPayment 20 7
      { restaurantId := 1, billId := 10, amountPaidMinorUnits := some 20800 })),
    .prepare 0 100 ⟨1, 10, 20, {}, "hka"⟩ none,
    .request 0 "a",
    .send 0,
    .reply 0 (issuedReply "F-1" "00-1"),
    .record 0 200 300 8 ]

end Splite
