import Splite.Fiscal.Itemised

/-!
# What a diner claimed, and what he is invoiced for

An invoice of what a diner claimed, in any run of the restaurant and the fiscal service. No bag at the
rate of zero has VAT, and so an invoice declares VAT of an exempt dish only out of another bag.

* `zeroRated_of_prepare`: a bag at the rate of zero has no VAT left to declare.
* `claimed_rates_iff`: every itemised draft of a run keeps to the rates of the lines that its payer claimed
  exactly when the bags at these rates hold what he pays, as it is built.
* `exempt_diner_declares`: a diner who had one exempt dish, and the VAT that she declares.
-/

namespace Splite

/-! ## What is read for an itemised draft -/

/-- The state, the lines that the payer claimed, in the currency of the bill and in bolívares, and his
payment. -/
structure ItemisedBase where
  state : FiscalState
  claimed : List SourceLine
  lines : List SourceLine
  paidMinor : Int

/-- The lines of a bill, in bolívares. -/
def linesInVes (bill : Bill) (lines : List SourceLine) : Except Err (List SourceLine) :=
  if bill.currency = .ves then .ok lines
  else lines.mapM (SourceLine.inVes (bill.fxRateVesPerUnit.getD RATE_SCALE))

/-- What `prepareDraft` builds an itemised draft from. -/
def itemisedBase (s : Db) (f : FiscalDb) (r : IssueRequest) : Option ItemisedBase := do
  let ⟨bill, lines, state⟩ ← (stateForBill s f r.restaurantId r.billId).toOption
  let payment ← s.payment? r.restaurantId r.paymentId
  let claimed := (← (claimedLines s f r.paymentId lines).toOption).claimed.getD []
  return ⟨state, claimed, ← (linesInVes bill claimed).toOption, payment.amountVes⟩

/-- The rates of the lines that the payer claimed. -/
def claimedRates (s : Db) (f : FiscalDb) (r : IssueRequest) : List Nat :=
  ((itemisedBase s f r).map fun base => base.claimed.map (·.vatBps)).getD []

/-- An itemised draft that is built keeps to the rates that its payer claimed. -/
def KeepsClaimed (w : FiscalWorld) (op : FiscalOp) : Prop :=
  ∀ x ∈ op.builds? w, x.2.lineBasis = .itemised → x.2.KeepsTo (claimedRates w.floor.db w.fiscal x.1)

/-- The bags at the rates that the payer claimed hold what he pays, as an itemised draft is built. -/
def HoldsClaimed (w : FiscalWorld) (op : FiscalOp) : Prop :=
  ∀ x ∈ op.builds? w, x.2.lineBasis = .itemised →
    ∀ base ∈ itemisedBase w.floor.db w.fiscal x.1, base.state.HoldsFor base.lines base.paidMinor

instance (w : FiscalWorld) (op : FiscalOp) : Decidable (KeepsClaimed w op) :=
  inferInstanceAs (Decidable (∀ x ∈ op.builds? w, x.2.lineBasis = .itemised →
    x.2.KeepsTo (claimedRates w.floor.db w.fiscal x.1)))

section Reads

variable {s : Db} {f : FiscalDb} {r : IssueRequest} {tableName : Option String} {p : Prepared}

theorem inVes_rate {scaledRate : Int} {l l' : SourceLine} (h : l.inVes scaledRate = .ok l') :
    l'.vatBps = l.vatBps := by
  unfold SourceLine.inVes at h
  simp only [Except.bind_eq_ok, Except.pure_eq_ok] at h
  obtain ⟨_, -, _, -, _, -, _, -, rfl⟩ := h
  rfl

theorem inVes_rates {scaledRate : Int} {lines lines' : List SourceLine}
    (h : lines.mapM (SourceLine.inVes scaledRate) = .ok lines') :
    lines'.map (·.vatBps) = lines.map (·.vatBps) := by
  have hall := Except.mapM_eq_ok h
  clear h
  induction hall with
  | nil => rfl
  | cons hl _ ih => rw [List.map_cons, List.map_cons, ih, inVes_rate hl]

/-- All the lines of a bill, each for what it costs. -/
def allLines (lines : List BillLine) : List SourceLine :=
  lines.map fun l => { l with shareMinor := l.subtotalMinor, fullMinor := l.subtotalMinor }

/-- A draft is built from the lines that its basis asks for. -/
structure PreparedLines (s : Db) (f : FiscalDb) (r : IssueRequest) (tableName : Option String)
    (draft : InvoiceDraft) (bill : Bill) (state : FiscalState) (payment : Payment)
    (claims : ClaimedLines) (lines : List SourceLine) : Prop where
  found : s.bill? r.restaurantId r.billId = some bill
  initial : initialState s bill = .ok state
  paid : s.payment? r.restaurantId r.paymentId = some payment
  claimed : claimedLines s f r.paymentId ((s.itemsOf r.billId).map BillItem.line) = .ok claims
  basis : draft.lineBasis =
    resolveLineBasis claims.splitMode claims.share payment.amountVes claims.claimed
  inVes : linesInVes bill (if draft.lineBasis = .itemised then claims.claimed.getD []
    else allLines ((s.itemsOf r.billId).map BillItem.line)) = .ok lines
  built : ∃ remaining, buildDraft (state.less (f.invoicesOf r.billId)) payment.amountVes draft.lineBasis
    lines tableName = .ok (draft, remaining)

theorem prepareDraft_lines (h : prepareDraft s f r tableName = .ok p) :
    ∃ state payment claims lines,
      PreparedLines s f r tableName p.draft p.bill state payment claims lines := by
  unfold prepareDraft stateForBill at h
  simp only [Except.bind_eq_ok, Except.ofOption_eq_ok, Except.require_eq_ok, bind_assoc,
    Option.filter_eq_some_iff, decide_eq_true_eq, Except.pure_eq_ok] at h
  obtain ⟨_, -, _, -, bill, hbill, state, hstate, _, rfl, payment, ⟨hpayment, hof⟩, _, hsettled, _,
    hfits, claims, hclaims, scaledRate, hrate, h⟩ := h
  dsimp only at hclaims hrate h
  obtain rfl : bill.fxRateVesPerUnit.getD RATE_SCALE = scaledRate := by
    unfold parseRate at hrate
    split at hrate
    · cases hrate
    · exact Except.ok.inj hrate
  split at h
  · rename_i hves
    simp only [Except.bind_eq_ok, Except.pure_eq_ok] at h
    obtain ⟨sourceLines, hlines, ⟨draft, remaining⟩, hdraft, rfl⟩ := h
    obtain ⟨-, hbasis, -⟩ := buildDraft_ok hdraft
    refine ⟨state, payment, claims, sourceLines, hbill, hstate, hpayment, hclaims, hbasis, ?_,
      remaining, hbasis ▸ hdraft⟩
    rw [linesInVes, if_pos hves, hbasis, ← hlines]
    rfl
  · rename_i hves
    simp only [Except.bind_eq_ok, Except.pure_eq_ok] at h
    obtain ⟨sourceLines, hlines, ⟨draft, remaining⟩, hdraft, rfl⟩ := h
    obtain ⟨-, hbasis, -⟩ := buildDraft_ok hdraft
    refine ⟨state, payment, claims, sourceLines, hbill, hstate, hpayment, hclaims, hbasis, ?_,
      remaining, hbasis ▸ hdraft⟩
    rw [linesInVes, if_neg hves, hbasis, ← hlines]
    rfl

theorem linesInVes_rates {bill : Bill} {lines lines' : List SourceLine}
    (h : linesInVes bill lines = .ok lines') : lines'.map (·.vatBps) = lines.map (·.vatBps) := by
  unfold linesInVes at h
  split at h
  · rw [Except.ok.inj h]
  · exact inVes_rates h

theorem PreparedLines.itemisedBase {draft : InvoiceDraft} {bill : Bill} {state : FiscalState}
    {payment : Payment} {claims : ClaimedLines} {lines : List SourceLine}
    (h : PreparedLines s f r tableName draft bill state payment claims lines)
    (hitemised : draft.lineBasis = .itemised) : Splite.itemisedBase s f r =
      some ⟨state.less (f.invoicesOf r.billId), claims.claimed.getD [], lines, payment.amountVes⟩ := by
  have hlines := h.inVes
  rw [if_pos hitemised] at hlines
  have hbase : stateForBill s f r.restaurantId r.billId =
      .ok ⟨bill, (s.itemsOf r.billId).map BillItem.line, state.less (f.invoicesOf r.billId)⟩ := by
    unfold stateForBill
    rw [h.found]
    simp only [Except.ofOption, Option.elim_some, Except.ok_bind, h.initial]
    rfl
  simp only [Splite.itemisedBase, hbase, Except.toOption, Option.bind_eq_bind, Option.bind_some, h.paid,
    h.claimed, hlines]
  rfl

/-- An itemised draft is built from what is read for it. -/
theorem prepareDraft_itemised (h : prepareDraft s f r tableName = .ok p)
    (hitemised : p.draft.lineBasis = .itemised) : ∃ base state remaining bill,
      itemisedBase s f r = some base ∧ initialState s bill = .ok state ∧
      base.state = state.less (f.invoicesOf r.billId) ∧ 0 < base.paidMinor ∧
      base.lines.map (·.vatBps) = base.claimed.map (·.vatBps) ∧
      buildDraft base.state base.paidMinor .itemised base.lines tableName = .ok (p.draft, remaining) := by
  obtain ⟨state, payment, claims, lines, hfrom⟩ := prepareDraft_lines h
  obtain ⟨remaining, hdraft⟩ := hfrom.built
  have hlines := hfrom.inVes
  rw [if_pos hitemised] at hlines
  exact ⟨_, state, remaining, p.bill, hfrom.itemisedBase hitemised, hfrom.initial, rfl,
    payment.amount_pos, linesInVes_rates hlines, hitemised ▸ hdraft⟩

end Reads

/-! ## Bags at the rate of zero -/

/-- A bag at the rate of zero has no VAT. -/
def FiscalState.ZeroRated (state : FiscalState) : Prop :=
  ∀ g ∈ state.groups, g.vatBps = 0 → g.vatMinor ≤ 0

section ZeroRated

variable {s : Db} {f : FiscalDb} {bill : Bill} {state : FiscalState}

theorem spread_getD_eq_zero : ∀ {weights parts : List Int} {i : Nat}, weights.getD i 0 ≤ 0 →
    (spread weights parts).getD i 0 = 0
  | [], _, _, _ => rfl
  | w :: ws, parts, 0, h => by
    have hw : ¬0 < w := not_lt.mpr (by simpa using h)
    simp [spread, hw]
  | w :: ws, parts, i + 1, h => by
    have h : ws.getD i 0 ≤ 0 := by simpa using h
    unfold spread
    split
    · simpa using (spread_getD_eq_zero h : (spread ws parts.tail).getD i 0 = 0)
    · simpa using (spread_getD_eq_zero h : (spread ws parts).getD i 0 = 0)

/-- The bucket of the VAT of a group. -/
theorem buckets_getD_vat : ∀ {groups : List FiscalGroup} {rest : List Int} {i : Nat}
    (hi : i < groups.length),
    ((groups.flatMap fun g => [g.baseMinor, g.vatMinor]) ++ rest).getD (i * 2 + 1) 0 =
      groups[i].vatMinor
  | g :: groups, rest, 0, _ => rfl
  | g :: groups, rest, i + 1, hi => by
    have hsucc : (i + 1) * 2 + 1 = i * 2 + 1 + 2 := by omega
    rw [hsucc]
    simpa using @buckets_getD_vat groups rest i (Nat.lt_of_succ_lt_succ hi)

theorem stateFromLines_zeroRated {lines : List BillLine} {serviceMinor : Int}
    (h : stateFromLines lines serviceMinor = .ok state) : state.ZeroRated := by
  unfold stateFromLines at h
  obtain ⟨groups, hgroups, h⟩ := Except.bind_eq_ok.mp h
  obtain rfl := Except.pure_eq_ok.mp h
  intro g hg hzero
  obtain ⟨rate, -, hrate⟩ := Except.exists_of_mapM hgroups g hg
  unfold rateGroup at hrate
  obtain ⟨vat, hvat, hrate⟩ := Except.bind_eq_ok.mp hrate
  obtain rfl := Except.pure_eq_ok.mp hrate
  obtain rfl : rate = 0 := hzero
  obtain ⟨-, rfl⟩ := applyBps_eq_ok hvat
  show bps _ ((0 : Nat) : Int) ≤ 0
  rw [bps, Nat.cast_zero, mul_zero, roundHalfAway_zero (by decide)]

theorem toVes_zeroRated {state' : FiscalState} {totalVes : Int} (hs : state.ZeroRated)
    (h : toVes state totalVes = .ok state') : state'.ZeroRated := by
  unfold toVes at h
  dsimp only at h
  split at h
  · obtain rfl := Except.pure_eq_ok.mp h
    exact hs
  · obtain ⟨parts, -, h⟩ := Except.bind_eq_ok.mp h
    obtain rfl := Except.pure_eq_ok.mp h
    intro g hg hzero
    obtain ⟨⟨g₀, i⟩, hmem, rfl⟩ := List.mem_map.mp hg
    obtain ⟨hi, hget⟩ := List.getElem?_eq_some_iff.mp (List.mem_zipIdx_iff_getElem?.mp hmem)
    dsimp only at hi hget
    refine (spread_getD_eq_zero ?_).le
    rw [buckets_getD_vat hi, hget]
    exact hs _ (hget ▸ List.getElem_mem hi) hzero

theorem initialState_zeroRated (h : initialState s bill = .ok state) : state.ZeroRated := by
  unfold initialState at h
  obtain ⟨state₀, hstate₀, h⟩ := Except.bind_eq_ok.mp h
  split at h
  · obtain rfl := Except.pure_eq_ok.mp h
    exact stateFromLines_zeroRated hstate₀
  · exact toVes_zeroRated (stateFromLines_zeroRated hstate₀) h

/-- A draft with no VAT that is negative. -/
def InvoiceDraft.VatNonneg (draft : InvoiceDraft) : Prop := ∀ t ∈ draft.taxes, 0 ≤ t.vatMinor

theorem buildDraft_vatNonneg {remaining : FiscalState} {paidMinor : Int} {lineBasis : LineBasis}
    {lines : List SourceLine} {tableName : Option String} {draft : InvoiceDraft} (h0 : 0 < paidMinor)
    (h : buildDraft state paidMinor lineBasis lines tableName = .ok (draft, remaining)) :
    draft.VatNonneg := by
  obtain ⟨-, -, invoice, hallocate, hof⟩ := buildDraft_ok h
  obtain ⟨_, _, -, -, -, -, hdeclares, -, -⟩ := allocatePayment_declares h0 hallocate
  intro t ht
  rw [hof.taxes] at ht
  obtain ⟨g, hg, rfl⟩ := List.mem_map.mp ht
  obtain ⟨i, hi, rfl⟩ := List.getElem_of_mem (List.mem_filter.mp hg).1
  obtain ⟨hlen, hget⟩ := List.forall₂_iff_get.mp hdeclares
  exact (hget i (hlen ▸ hi) hi).vat

/-- What documents leave of bags at the rate of zero has no VAT. -/
theorem FiscalState.ZeroRated.less {documents : List FiscalDocument} (hs : state.ZeroRated)
    (hd : ∀ d ∈ documents, d.VatNonneg) : (state.less documents).ZeroRated := by
  intro g hg hzero
  obtain ⟨g₀, hg₀, rfl⟩ := List.mem_map.mp hg
  have hdeclared : 0 ≤ declaredVat documents g₀.vatBps := by
    refine List.sum_nonneg fun v hv => ?_
    obtain ⟨t, ht, rfl⟩ := List.mem_map.mp hv
    obtain ⟨d, hmem, ht⟩ := List.mem_flatMap.mp (List.mem_filter.mp ht).1
    exact hd d hmem t ht
  have := hs g₀ hg₀ hzero
  show g₀.vatMinor - declaredVat documents g₀.vatBps ≤ 0
  omega

end ZeroRated

/-! ## Every run -/

section Runs

variable {w : FiscalWorld} {op : FiscalOp} {args : IssueRequest} {draft : InvoiceDraft}

theorem prepared_of_builds (h : op.builds? w = some (args, draft)) : ∃ tableName prepared,
    prepareDraft w.floor.db w.fiscal args tableName = .ok prepared ∧ prepared.draft = draft := by
  unfold FiscalOp.builds? at h
  split at h
  · split at h
    · rename_i prepared hprepared
      cases h
      exact ⟨_, prepared, hprepared, rfl⟩
    · cases h
  · cases h

/-- A draft that is built has no VAT that is negative. -/
theorem vatNonneg_of_builds (h : op.builds? w = some (args, draft)) : draft.VatNonneg := by
  obtain ⟨tableName, prepared, hprepared, rfl⟩ := prepared_of_builds h
  obtain ⟨state, payment, hfrom⟩ := prepareDraft_ok hprepared
  obtain ⟨_, _, _, _, hdraft⟩ := hfrom.draft
  exact buildDraft_vatNonneg payment.amount_pos hdraft

/-- Documents without VAT that is negative. -/
abbrev VatSound (w : FiscalWorld) : Prop := w.Sound ∧ Carries (fun _ _ draft => draft.VatNonneg) w

theorem VatSound.step (h : VatSound w) (op : FiscalOp) : VatSound (invoicing.step w op).1 :=
  ⟨h.1.step op, h.2.step h.1 fun _ _ hbuilds => vatNonneg_of_builds hbuilds⟩

/-- A bag at the rate of zero has no VAT left to declare. -/
theorem zeroRated_of_prepare (h : VatSound w) {bill : Bill} {state : FiscalState} (billId : Uuid)
    (hstate : initialState w.floor.db bill = .ok state) :
    (state.less (w.fiscal.invoicesOf billId)).ZeroRated :=
  (initialState_zeroRated hstate).less fun d hd =>
    (h.2.document d (List.mem_filter.mp hd).1).2

/-- A step keeps to the rates that were claimed exactly when the bags hold the payment. -/
theorem keepsClaimed_iff (h : VatSound w) (op : FiscalOp) : KeepsClaimed w op ↔ HoldsClaimed w op := by
  unfold KeepsClaimed HoldsClaimed
  refine forall₂_congr fun x hx => forall_congr' fun hitemised => ?_
  have hbuilds : op.builds? w = some (x.1, x.2) := hx
  obtain ⟨tableName, prepared, hprepared, hdraft⟩ := prepared_of_builds hbuilds
  rw [← hdraft] at hitemised ⊢
  obtain ⟨base, state, remaining, bill, hread, hstate, hless, hpaid, hrates, hbuild⟩ :=
    prepareDraft_itemised hprepared hitemised
  have hzero := zeroRated_of_prepare h x.1.billId hstate
  rw [← hless] at hzero
  have hiff := buildDraft_rates_iff hpaid hzero hbuild
  unfold claimedRates
  rw [hread]
  simp only [Option.map_some, Option.getD_some, Option.mem_def, Option.some.injEq, forall_eq']
  rw [← hrates]
  exact hiff

end Runs

/-- In any run of the restaurant and the fiscal service, every itemised draft keeps to the rates of the lines
that its payer claimed exactly when the bags at these rates hold his payment as it is built, or lack so
little that no other bag gets a unit of it. Every itemised document of the run is such a draft. -/
theorem claimed_rates_iff (floor : Floor) (registry : List String) (series : Table FiscalSeries)
    (issuers : Table Issuer) (splitItems : List SplitItem) (ops : List FiscalOp) :
    let w := FiscalWorld.start floor registry series issuers splitItems
    (invoicing.Every KeepsClaimed w ops ↔ invoicing.Every HoldsClaimed w ops) ∧
      ∀ d ∈ (invoicing.run w ops).fiscal.documents, d.lineBasis = .itemised →
        ∃ before op after args, ops = before ++ op :: after ∧ args.paymentId = d.paymentId ∧
          op.builds? (invoicing.run w before) = some (args, d.toInvoiceDraft) := by
  intro w
  have hstart : VatSound w := ⟨.start .., .start ..⟩
  refine ⟨Machine.every_iff (I := VatSound) (fun w op hw => keepsClaimed_iff hw op)
    (fun w op hw _ => hw.step op) hstart, fun d hd _ => ?_⟩
  obtain ⟨before, op, after, args, hops, hbuilds, hpayment, -⟩ :=
    FiscalWorld.provenance floor registry series issuers splitItems ops d hd
  exact ⟨before, op, after, args, hops, hpayment, hbuilds⟩

/-! ## An exempt dish -/

/-- Ana had the pabellón, which is taxed, and Eva a loaf of the same price, which is exempt. -/
def dinnerItems : List BillItem :=
  [⟨40, 1, 10, none, "Pabellón", 10000, .ves, 1, .taxable, some 1600⟩,
    ⟨41, 1, 10, none, "Pan", 10000, .ves, 1, .exempt, some 0⟩]

def dinnerBill : Bill where
  id := 10
  restaurantId := 1
  status := .open
  currency := .ves
  subtotalMinor := 20000
  vatBps := 1600
  vatMinor := 1600
  serviceChargeBps := 0
  serviceChargeMinor := 0
  totalDue := 21600
  totalDueVes := 21600
  amountPaidVes := 0
  fxRateVesPerUnit := none
  fxRateSource := none

/-- Each owes what he had; the VAT is spread over the lines by price. -/
example : (preview dinnerBill dinnerItems
    { mode := .items
      participants := [⟨"ana", some "Ana", none⟩, ⟨"eva", some "Eva", none⟩]
      claims := some [⟨40, none, ["ana"]⟩, ⟨41, none, ["eva"]⟩] }).map
        (·.allocations.map (·.amountVes)) = .ok [10800, 10800] := by decide

/-- Eva has paid her share of the split. -/
def dinner : Floor where
  ledger := .idle
    { bills := ⟨[{ dinnerBill with amountPaidVes := 10800 }], by simp⟩
      items := ⟨dinnerItems, by decide⟩
      payments := ⟨[{ supperPayment 2 10800 (by decide) with splitParticipantId := some 7 }], by simp⟩
      splits := ⟨[⟨5, 1, 10, .items, 21600, .active⟩], by simp⟩
      shares := ⟨[⟨6, 1, 5, "ana", some "Ana", 10800, 0⟩, ⟨7, 1, 5, "eva", some "Eva", 10800, 10800⟩],
        by decide⟩
      products := ∅, transitions := [], adjustments := ∅, charges := ∅
      attempts := [], events := ∅, movements := ∅, bankMatches := ∅ }
  restaurants := ∅
  rateFor := fun _ => none
  openings := []

/-- The invoice of the exempt dish declares the VAT that its bag could not hold. -/
theorem exempt_diner_declares : ¬invoicing.Every KeepsClaimed
    (.start dinner [] ∅ ⟨[⟨1, some "J-1"⟩], by simp⟩ [⟨5, 40, 6⟩, ⟨5, 41, 7⟩])
    [.prepare 0 100 ⟨1, 10, 2, {}, OWN⟩ none] := by
  decide +kernel

end Splite
