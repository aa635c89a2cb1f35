import Splite.Fiscal.Agreement

/-!
# What the lines of a draft add up to (`services/fiscalInvoiceBuilder.js`)

The lines are spread below amounts that are settled before them, and only the lines that the basis asks
for are. The breakdown may have a row at a rate that no line is at.

* `spreadAcrossLines_ok`: what is spread over some lines, they add up to.
* `itemLines_ok`: the lines of an invoice add up to its group at every rate of theirs, and are at no other.
* `addsUp_iff`: a draft adds up exactly when every row of its breakdown is at the rate of a line.
* `lines_add_up_iff`: every draft of a run adds up exactly when the bags at the rates of an itemised draft
  hold its payment.
-/

namespace Splite

/-! ## The lines of an invoice -/

/-- What some lines declare at a rate, in one of their columns. -/
def linesAt (column : DraftLine → Int) (lines : List DraftLine) (rate : Int) : Int :=
  ((lines.filter (·.vatBps = rate)).map column).sum

/-- What some groups declare at a rate, in one of their columns. -/
def groupsAt (column : FiscalGroup → Int) (groups : List FiscalGroup) (rate : Nat) : Int :=
  ((groups.filter (·.vatBps = rate)).map column).sum

section Spread

variable {amount : Int} {lines : List SourceLine} {parts : List Int}

theorem spreadAcrossLines_ok (h : spreadAcrossLines amount lines = .ok parts) :
    parts.length = lines.length ∧ (lines ≠ [] → parts.sum = amount) := by
  unfold spreadAcrossLines at h
  dsimp only at h
  split at h
  · rename_i hnone
    obtain rfl := Except.ok.inj h
    refine ⟨by simp, fun hne => ?_⟩
    rw [hnone.resolve_left hne]
    simp
  split at h
  · have hexact := allocate_ok h
    exact ⟨by simpa using hexact.length_eq, fun _ => hexact.sum_eq⟩
  · obtain ⟨allocated, hallocated, h⟩ := Except.bind_eq_ok.mp h
    obtain rfl := Except.pure_eq_ok.mp h
    have hexact := spread_exact (allocate_ok hallocated)
    exact ⟨by simpa using hexact.length_eq, fun _ => hexact.sum_eq⟩

end Spread

section Lines

variable {invoice : FiscalInvoice} {state : FiscalState} {sourceLines : List SourceLine}
  {out lines : List DraftLine} {rate : Nat}

/-- The lines of one rate: there are some, and they add up to the group. -/
structure BlockOf (invoice : FiscalInvoice) (state : FiscalState) (rate : Nat) (rows : List DraftLine) :
    Prop where
  atRate : ∀ l ∈ rows, l.vatBps = rate
  listed : rows ≠ []
  base : (rows.map (·.baseMinor)).sum = (groupAt invoice state rate).baseMinor
  vat : (rows.map (·.vatMinor)).sum = (groupAt invoice state rate).vatMinor

theorem rateLines_ok (hrate : rate ∈ sourceLines.map (·.vatBps))
    (h : rateLines invoice state sourceLines out rate = .ok lines) :
    ∃ rows, lines = out ++ rows ∧ BlockOf invoice state rate rows := by
  unfold rateLines at h
  dsimp only at h
  obtain ⟨bases, hbases, h⟩ := Except.bind_eq_ok.mp h
  obtain ⟨vats, hvats, h⟩ := Except.bind_eq_ok.mp h
  obtain rfl := Except.pure_eq_ok.mp h
  set ofRate := sourceLines.filter (·.vatBps = rate)
  obtain ⟨hblen, hbsum⟩ := spreadAcrossLines_ok hbases
  obtain ⟨hvlen, hvsum⟩ := spreadAcrossLines_ok hvats
  have hne : ofRate ≠ [] := by
    obtain ⟨l, hl, hrate⟩ := List.mem_map.mp hrate
    exact List.ne_nil_of_mem (List.mem_filter.mpr ⟨hl, by simpa using hrate⟩)
  have hzip : (ofRate.zip (bases.zip vats)).map Prod.snd = bases.zip vats :=
    List.map_snd_zip (by simp [hblen, hvlen])
  -- A column of the rows is a column of what was spread.
  have hcolumn : ∀ (of : Int × Int → Int) {f : (SourceLine × Int × Int) × Nat → DraftLine}
      {column : DraftLine → Int}, (∀ x, column (f x) = of x.1.2) →
      (((ofRate.zip (bases.zip vats)).zipIdx.map f).map column) = (bases.zip vats).map of := by
    intro of f column hof
    have hfst := List.zipIdx_map_fst 0 (ofRate.zip (bases.zip vats))
    calc ((ofRate.zip (bases.zip vats)).zipIdx.map f).map column
        = (ofRate.zip (bases.zip vats)).zipIdx.map fun x => of x.1.2 := by
          rw [List.map_map]
          exact List.map_congr_left fun x _ => hof x
      _ = (((ofRate.zip (bases.zip vats)).zipIdx.map Prod.fst).map Prod.snd).map of := by
          rw [List.map_map, List.map_map]
          rfl
      _ = (bases.zip vats).map of := by rw [hfst, hzip]
  refine ⟨_, rfl, fun l hl => ?_, ?_, ?_, ?_⟩
  · obtain ⟨x, -, rfl⟩ := List.mem_map.mp hl
    rfl
  · have hlen : 0 < ofRate.length := List.length_pos_of_ne_nil hne
    refine List.ne_nil_of_length_pos ?_
    simp [hblen, hvlen, hlen]
  · rw [hcolumn Prod.fst fun _ => rfl, List.map_fst_zip (by omega)]
    exact hbsum hne
  · rw [hcolumn Prod.snd fun _ => rfl, List.map_snd_zip (by omega)]
    exact hvsum hne

/-- The blocks of pairwise different rates, at one rate. -/
theorem sum_blocks {column : DraftLine → Int} {value : Nat → Int} {rates : List Nat}
    {blocks : List (List DraftLine)} (hnodup : rates.Nodup)
    (hall : List.Forall₂ (fun rate rows => (∀ l ∈ rows, l.vatBps = ((rate : Nat) : Int)) ∧
      (rows.map column).sum = value rate) rates blocks) (rate : Nat) :
    linesAt column blocks.flatten rate = if rate ∈ rates then value rate else 0 := by
  induction hall with
  | nil => rfl
  | @cons r rows rates blocks hrows _ ih =>
    obtain ⟨hr, hnodup⟩ := List.nodup_cons.mp hnodup
    have ih := ih hnodup
    unfold linesAt at ih ⊢
    rw [List.flatten_cons, List.filter_append, List.map_append, List.sum_append, ih]
    obtain ⟨hrate, hsum⟩ := hrows
    by_cases heq : rate = r
    · subst heq
      rw [List.filter_eq_self.mpr fun l hl => by simpa using hrate l hl, hsum]
      simp [hr]
    · rw [List.filter_eq_nil_iff.mpr fun l hl => by
        rw [hrate l hl]
        simpa using fun h => heq (Int.ofNat_inj.mp h).symm]
      simp [heq]

/-- At every rate of the source lines there are lines, which add up to the group, and there are no
others. -/
structure LinesOf (invoice : FiscalInvoice) (state : FiscalState) (rates : List Nat)
    (lines : List DraftLine) : Prop where
  base : ∀ rate : Nat, linesAt (·.baseMinor) lines rate =
    if rate ∈ rates then (groupAt invoice state rate).baseMinor else 0
  vat : ∀ rate : Nat, linesAt (·.vatMinor) lines rate =
    if rate ∈ rates then (groupAt invoice state rate).vatMinor else 0
  rate : ∀ l ∈ lines, ∃ rate ∈ rates, l.vatBps = rate
  listed : ∀ rate ∈ rates, ∃ l ∈ lines, l.vatBps = rate

theorem itemLines_ok (h : itemLines invoice state sourceLines = .ok lines) :
    LinesOf invoice state (sourceLines.map (·.vatBps)) lines := by
  set rates := (sourceLines.map (·.vatBps)).dedup.insertionSort (· ≤ ·) with hrates
  have hmem : ∀ rate, rate ∈ rates ↔ rate ∈ sourceLines.map (·.vatBps) := fun rate => by
    rw [hrates, List.mem_insertionSort, List.mem_dedup]
  have hnodup : rates.Nodup := (List.perm_insertionSort _ _).nodup_iff.mpr (List.nodup_dedup _)
  obtain ⟨blocks, rfl, hblocks⟩ := Except.foldlM_append (P := BlockOf invoice state)
    (fun rate hrate out out' hout => rateLines_ok ((hmem rate).mp hrate) hout) h
  rw [List.nil_append]
  have hbase := sum_blocks hnodup (hblocks.imp fun _ _ hb => ⟨hb.atRate, hb.base⟩)
  have hvat := sum_blocks hnodup (hblocks.imp fun _ _ hb => ⟨hb.atRate, hb.vat⟩)
  simp only [hmem] at hbase hvat
  obtain ⟨hlen, hget⟩ := List.forall₂_iff_get.mp hblocks
  refine ⟨hbase, hvat, fun l hl => ?_, fun rate hrate => ?_⟩
  · obtain ⟨rows, hrows, hl⟩ := List.mem_flatten.mp hl
    obtain ⟨i, hi, rfl⟩ := List.getElem_of_mem hrows
    exact ⟨_, (hmem _).mp (List.getElem_mem (hlen ▸ hi)), (hget i (hlen ▸ hi) hi).atRate l hl⟩
  · obtain ⟨i, hi, rfl⟩ := List.getElem_of_mem ((hmem rate).mpr hrate)
    have hblock := hget i hi (hlen ▸ hi)
    obtain ⟨l, hl⟩ := List.exists_mem_of_ne_nil _ hblock.listed
    exact ⟨l, List.mem_flatten.mpr ⟨_, List.getElem_mem (hlen ▸ hi), hl⟩, hblock.atRate l hl⟩

end Lines

/-! ## A draft that adds up -/

/-- The lines of a draft add up to each row of its breakdown and to nothing elsewhere, every row that
declares anything has a line, and the draft adds up to its lines and to the payment. -/
structure InvoiceDraft.AddsUp (d : InvoiceDraft) (paidMinor : Int) : Prop where
  base : ∀ t ∈ d.taxes, linesAt (·.baseMinor) d.lines t.vatBps = t.baseMinor
  vat : ∀ t ∈ d.taxes, linesAt (·.vatMinor) d.lines t.vatBps = t.vatMinor
  elsewhere : ∀ l ∈ d.lines, (∀ t ∈ d.taxes, t.vatBps ≠ l.vatBps) →
    linesAt (·.baseMinor) d.lines l.vatBps = 0 ∧ linesAt (·.vatMinor) d.lines l.vatBps = 0
  listed : ∀ t ∈ d.taxes, t.baseMinor ≠ 0 ∨ t.vatMinor ≠ 0 → ∃ l ∈ d.lines, l.vatBps = t.vatBps
  subtotal : d.subtotalMinor = (d.lines.map (·.baseMinor)).sum
  vatTotal : d.vatMinor = (d.lines.map (·.vatMinor)).sum
  total : d.subtotalMinor + d.vatMinor + d.serviceMinor = paidMinor

instance (d : InvoiceDraft) (paidMinor : Int) : Decidable (d.AddsUp paidMinor) :=
  decidable_of_iff ((∀ t ∈ d.taxes, linesAt (·.baseMinor) d.lines t.vatBps = t.baseMinor) ∧
    (∀ t ∈ d.taxes, linesAt (·.vatMinor) d.lines t.vatBps = t.vatMinor) ∧
    (∀ l ∈ d.lines, (∀ t ∈ d.taxes, t.vatBps ≠ l.vatBps) →
      linesAt (·.baseMinor) d.lines l.vatBps = 0 ∧ linesAt (·.vatMinor) d.lines l.vatBps = 0) ∧
    (∀ t ∈ d.taxes, t.baseMinor ≠ 0 ∨ t.vatMinor ≠ 0 → ∃ l ∈ d.lines, l.vatBps = t.vatBps) ∧
    d.subtotalMinor = (d.lines.map (·.baseMinor)).sum ∧ d.vatMinor = (d.lines.map (·.vatMinor)).sum ∧
    d.subtotalMinor + d.vatMinor + d.serviceMinor = paidMinor)
    ⟨fun ⟨hb, hv, he, hl, hs, hvs, ht⟩ => ⟨hb, hv, he, hl, hs, hvs, ht⟩,
      fun h => ⟨h.base, h.vat, h.elsewhere, h.listed, h.subtotal, h.vatTotal, h.total⟩⟩

section Columns

variable {invoice : FiscalInvoice} {state : FiscalState} {rates : List Nat} {lines : List DraftLine}

/-- The group of an invoice that a rate is looked up for. -/
theorem groupAt_column (column : FiscalGroup → Int) {rate : Nat} (hnone : column ⟨rate, 0, 0⟩ = 0)
    (hrates : invoice.groups.map (·.vatBps) = state.groups.map (·.vatBps)) (hdistinct : state.Distinct) :
    column (groupAt invoice state rate) = groupsAt column invoice.groups rate := by
  obtain ⟨groups, service⟩ := state
  obtain ⟨taken, _, _⟩ := invoice
  unfold groupAt groupsAt FiscalState.Distinct at *
  dsimp only at hrates hdistinct ⊢
  induction groups generalizing taken with
  | nil =>
    obtain rfl : taken = [] := List.map_eq_nil_iff.mp hrates
    simpa using hnone
  | cons g groups ih =>
    rw [List.map_cons] at hrates
    obtain ⟨t, taken', rfl, hrate, hrates⟩ := List.map_eq_cons_iff.mp hrates
    obtain ⟨hne, hdistinct⟩ := List.nodup_cons.mp hdistinct
    rw [List.zip_cons_cons, List.find?_cons]
    by_cases heq : g.vatBps = rate
    · subst heq
      have hrest : ∀ t' ∈ taken', t'.vatBps ≠ g.vatBps := by
        intro t' ht' heq
        exact hne (hrates ▸ List.mem_map.mpr ⟨t', ht', heq⟩)
      rw [List.filter_cons_of_pos (by simpa using hrate), List.map_cons, List.sum_cons,
        column_of_not_mem hrest]
      simp
    · rw [List.filter_cons_of_neg (by simpa [hrate] using heq)]
      simpa [heq] using ih hdistinct taken' hrates

/-- Where every group that declares anything is at the rate of a line, the lines add up to the groups. -/
theorem sum_lines {of : DraftLine → Int} {column : FiscalGroup → Int}
    (hlines : ∀ rate : Nat, linesAt of lines rate =
      if rate ∈ rates then groupsAt column invoice.groups rate else 0)
    (hrate : ∀ l ∈ lines, ∃ rate ∈ rates, l.vatBps = rate)
    (hkeep : ∀ g ∈ invoice.groups, column g ≠ 0 → g.vatBps ∈ rates) :
    (lines.map of).sum = (invoice.groups.map column).sum := by
  have hl := sum_at_keys (·.vatBps) lines of ((List.nodup_dedup rates).map Nat.cast_injective)
  have hg := sum_at_keys (·.vatBps) invoice.groups column (List.nodup_dedup rates)
  have hother : (lines.filter fun l => l.vatBps ∉ rates.dedup.map Nat.cast) = [] := by
    refine List.filter_eq_nil_iff.mpr fun l hl => ?_
    obtain ⟨rate, hin, heq⟩ := hrate l hl
    simpa using ⟨rate, hin, heq.symm⟩
  have hzero : ((invoice.groups.filter fun g => g.vatBps ∉ rates.dedup).map column).sum = 0 := by
    refine List.sum_eq_zero fun x hx => ?_
    obtain ⟨g, hg, rfl⟩ := List.mem_map.mp hx
    obtain ⟨hg, hnot⟩ := List.mem_filter.mp hg
    by_contra hne
    exact absurd (hkeep g hg hne) (by simpa using hnot)
  rw [hother, List.map_nil, List.sum_nil, add_zero, List.map_map] at hl
  rw [hzero, add_zero] at hg
  rw [← hl, ← hg]
  refine congrArg List.sum (List.map_congr_left fun rate hin => ?_)
  exact (hlines rate).trans (if_pos (List.mem_dedup.mp hin))

end Columns

/-- A draft adds up exactly when every row of its breakdown is at the rate of one of the lines. -/
theorem addsUp_iff {state remaining : FiscalState} {paidMinor : Int} {lineBasis : LineBasis}
    {sourceLines : List SourceLine} {tableName : Option String} {draft : InvoiceDraft} (h0 : 0 < paidMinor)
    (hdistinct : state.Distinct) (hbasis : lineBasis ≠ .aggregate)
    (h : buildDraft state paidMinor lineBasis sourceLines tableName = .ok (draft, remaining)) :
    draft.AddsUp paidMinor ↔ draft.DeclaresAt (sourceLines.map (·.vatBps)) := by
  obtain ⟨-, -, invoice, hallocate, hof, hlines⟩ := buildDraft_lines h
  have hwhole := allocatePayment_whole h0 hallocate
  obtain ⟨hbases, hvats, hrate, hlisted⟩ := itemLines_ok (hlines hbasis)
  simp only [groupAt_column (·.baseMinor) rfl hwhole.rates hdistinct] at hbases
  simp only [groupAt_column (·.vatMinor) rfl hwhole.rates hdistinct] at hvats
  have hnodup : (invoice.groups.map (·.vatBps)).Nodup := hwhole.rates ▸ hdistinct
  have hrow : ∀ g ∈ invoice.groups, g.baseMinor ≠ 0 ∨ g.vatMinor ≠ 0 → ∃ t ∈ draft.taxes,
      t.vatBps = g.vatBps := by
    intro g hg hne
    have := hwhole.base g hg
    have := hwhole.vat g hg
    rw [hof.taxes]
    exact ⟨_, List.mem_map_of_mem (List.mem_filter.mpr ⟨hg, by simp; omega⟩), rfl⟩
  constructor
  · intro hadds t ht
    have hnone : t.baseMinor ≠ 0 ∨ t.vatMinor ≠ 0 := by
      rw [hof.taxes] at ht
      obtain ⟨g, hg, rfl⟩ := List.mem_map.mp ht
      have := (List.mem_filter.mp hg).2
      simp at this ⊢
      omega
    obtain ⟨l, hl, heq⟩ := hadds.listed t ht hnone
    obtain ⟨rate, hin, hlrate⟩ := hrate l hl
    exact ⟨rate, hin, heq ▸ hlrate⟩
  · intro hdeclares
    have hkeep : ∀ g ∈ invoice.groups, g.baseMinor ≠ 0 ∨ g.vatMinor ≠ 0 →
        g.vatBps ∈ sourceLines.map (·.vatBps) := by
      intro g hg hne
      obtain ⟨t, ht, heq⟩ := hrow g hg hne
      obtain ⟨rate, hin, htrate⟩ := hdeclares t ht
      exact (Int.ofNat_inj.mp (heq.symm.trans htrate)) ▸ hin
    have hat : ∀ t ∈ draft.taxes, linesAt (·.baseMinor) draft.lines t.vatBps = t.baseMinor ∧
        linesAt (·.vatMinor) draft.lines t.vatBps = t.vatMinor := by
      intro t ht
      obtain ⟨rate, hin, heq⟩ := hdeclares t ht
      rw [hof.taxes] at ht
      obtain ⟨g, hg, rfl⟩ := List.mem_map.mp ht
      obtain rfl : g.vatBps = rate := Int.ofNat_inj.mp heq
      have hg := (List.mem_filter.mp hg).1
      rw [hbases g.vatBps, hvats g.vatBps, if_pos hin, if_pos hin]
      exact ⟨column_of_mem hnodup hg, column_of_mem hnodup hg⟩
    refine ⟨fun t ht => (hat t ht).1, fun t ht => (hat t ht).2, fun l hl hother => ?_,
      fun t ht _ => ?_, ?_, ?_, ?_⟩
    · obtain ⟨rate, hin, heq⟩ := hrate l hl
      have hempty : ∀ g ∈ invoice.groups, g.vatBps = rate → g.baseMinor = 0 ∧ g.vatMinor = 0 := by
        intro g hg hgrate
        by_contra hne
        obtain ⟨t, ht, htrate⟩ := hrow g hg (by omega)
        exact hother t ht (by rw [htrate, heq, hgrate])
      rw [heq, hbases rate, hvats rate, if_pos hin, if_pos hin]
      constructor <;>
      · refine List.sum_eq_zero fun x hx => ?_
        obtain ⟨g, hg, rfl⟩ := List.mem_map.mp hx
        obtain ⟨hg, hgrate⟩ := List.mem_filter.mp hg
        have := hempty g hg (by simpa using hgrate)
        omega
    · obtain ⟨rate, hin, heq⟩ := hdeclares t ht
      rw [heq]
      exact hlisted rate hin
    · rw [hof.subtotal, sum_lines hbases hrate fun g hg hne => hkeep g hg (.inl hne)]
    · rw [hof.vat, sum_lines hvats hrate fun g hg hne => hkeep g hg (.inr hne)]
    · rw [hof.subtotal, hof.vat, hof.service, ← List.sum_map_add]
      exact hwhole.parts

/-! ## Every run -/

section Rates

variable {s : Db} {f : FiscalDb} {bill : Bill} {state : FiscalState}

/-- The bags of a bill are at the rates of its lines, in order. -/
theorem initialState_rates (h : initialState s bill = .ok state) :
    state.groups.map (·.vatBps) =
      (((s.itemsOf bill.id).map BillItem.line).map (·.vatBps)).dedup.insertionSort (· ≤ ·) := by
  unfold initialState at h
  obtain ⟨state₀, hstate₀, h⟩ := Except.bind_eq_ok.mp h
  have hrates : state₀.groups.map (·.vatBps) =
      (((s.itemsOf bill.id).map BillItem.line).map (·.vatBps)).dedup.insertionSort (· ≤ ·) := by
    unfold stateFromLines at hstate₀
    obtain ⟨groups, hgroups, hstate₀⟩ := Except.bind_eq_ok.mp hstate₀
    obtain rfl := Except.pure_eq_ok.mp hstate₀
    refine Eq.symm ?_
    rw [← List.forall₂_eq_eq_eq, List.forall₂_map_right_iff]
    refine (Except.mapM_eq_ok hgroups).imp fun rate g hg => ?_
    unfold rateGroup at hg
    obtain ⟨vat, -, hg⟩ := Except.bind_eq_ok.mp hg
    obtain rfl := Except.pure_eq_ok.mp hg
    rfl
  split at h
  · obtain rfl := Except.pure_eq_ok.mp h
    exact hrates
  · refine Eq.trans (Eq.symm ?_) hrates
    rw [← List.forall₂_eq_eq_eq, List.forall₂_map_left_iff, List.forall₂_map_right_iff]
    exact (toVes_zeros h).1.imp fun _ _ hg => hg.rate.symm

theorem less_rates (state : FiscalState) (documents : List FiscalDocument) :
    (state.less documents).groups.map (·.vatBps) = state.groups.map (·.vatBps) := by
  unfold FiscalState.less
  rw [List.map_map]
  rfl

end Rates

/-- A draft that is built adds up to the payment that it is for. -/
def AddsUpBuilt (w : FiscalWorld) (op : FiscalOp) : Prop :=
  ∀ x ∈ op.builds? w, ∃ payment ∈ w.floor.db.payment? x.1.restaurantId x.1.paymentId,
    x.2.AddsUp payment.amountVes

instance (w : FiscalWorld) (op : FiscalOp) : Decidable (AddsUpBuilt w op) :=
  inferInstanceAs (Decidable (∀ x ∈ op.builds? w,
    ∃ payment ∈ w.floor.db.payment? x.1.restaurantId x.1.paymentId, x.2.AddsUp payment.amountVes))

section Runs

variable {s : Db} {f : FiscalDb} {r : IssueRequest} {tableName : Option String} {draft : InvoiceDraft}
  {bill : Bill} {state : FiscalState} {payment : Payment} {claims : ClaimedLines} {lines : List SourceLine}

theorem resolveLineBasis_ne_aggregate (splitMode : Option SplitMode) (share : Option Int) (paid : Int)
    (claimed : Option (List SourceLine)) : resolveLineBasis splitMode share paid claimed ≠ .aggregate := by
  unfold resolveLineBasis
  split <;> exact nofun

/-- A draft that `issueForPayment` builds adds up exactly when its breakdown keeps to the rates of the lines
that it was built from. -/
theorem PreparedLines.addsUp_iff (h : PreparedLines s f r tableName draft bill state payment claims lines) :
    draft.AddsUp payment.amountVes ↔ draft.DeclaresAt (lines.map (·.vatBps)) := by
  obtain ⟨remaining, hbuild⟩ := h.built
  refine Splite.addsUp_iff payment.amount_pos ?_ ?_ hbuild
  · unfold FiscalState.Distinct
    rw [less_rates, initialState_rates h.initial]
    exact (List.perm_insertionSort _ _).nodup_iff.mpr (List.nodup_dedup _)
  · rw [h.basis]
    exact resolveLineBasis_ne_aggregate _ _ _ _

/-- The lines of a draft that is not itemised are at all the rates of the bill. -/
theorem PreparedLines.declaresAt (h : PreparedLines s f r tableName draft bill state payment claims lines)
    (hbasis : draft.lineBasis ≠ .itemised) : draft.DeclaresAt (lines.map (·.vatBps)) := by
  obtain ⟨remaining, hbuild⟩ := h.built
  obtain ⟨-, -, invoice, hallocate, hof⟩ := buildDraft_ok hbuild
  have hrates := (allocatePayment_whole payment.amount_pos hallocate).rates
  have hlines := linesInVes_rates h.inVes
  rw [if_neg hbasis, allLines, List.map_map] at hlines
  have hid : bill.id = r.billId := Table.find?_key (bill?_eq_some.mp h.found).1
  intro t ht
  rw [hof.taxes] at ht
  obtain ⟨g, hg, rfl⟩ := List.mem_map.mp ht
  refine ⟨g.vatBps, ?_, rfl⟩
  have hmem := List.mem_map_of_mem (f := FiscalGroup.vatBps) (List.mem_filter.mp hg).1
  rw [show invoice.groups.map FiscalGroup.vatBps = _ from hrates, less_rates,
    initialState_rates h.initial, List.mem_insertionSort, List.mem_dedup, hid] at hmem
  rw [hlines]
  exact hmem

/-- A draft of a step adds up exactly when the bags hold what is paid for the lines of an itemised one. -/
theorem addsUpBuilt_iff (w : FiscalWorld) (op : FiscalOp) : AddsUpBuilt w op ↔ HoldsClaimed w op := by
  unfold AddsUpBuilt HoldsClaimed
  refine forall₂_congr fun x hx => ?_
  have hbuilds : op.builds? w = some (x.1, x.2) := hx
  obtain ⟨tableName, prepared, hprepared, hdraft⟩ := prepared_of_builds hbuilds
  obtain ⟨state, payment, claims, lines, hfrom⟩ := prepareDraft_lines hprepared
  rw [hdraft] at hfrom
  have hpaid : (∃ payment ∈ w.floor.db.payment? x.1.restaurantId x.1.paymentId,
      x.2.AddsUp payment.amountVes) ↔ x.2.AddsUp payment.amountVes := by
    rw [hfrom.paid]
    simp
  rw [hpaid, hfrom.addsUp_iff]
  by_cases hitemised : x.2.lineBasis = .itemised
  · obtain ⟨remaining, hbuild⟩ := hfrom.built
    rw [hitemised] at hbuild
    rw [buildDraft_taxes_iff payment.amount_pos hbuild]
    simp only [hitemised, forall_const, hfrom.itemisedBase hitemised, Option.mem_def, Option.some.injEq,
      forall_eq']
  · exact iff_of_true (hfrom.declaresAt hitemised) fun h => absurd h hitemised

end Runs

/-- In any run of the restaurant and the fiscal service, every draft adds up, line by line, to its
breakdown, its totals and its payment exactly when the bags at the rates that its payer claimed hold what he
pays, as an itemised draft is built, or lack so little that no other bag gets a unit of it. -/
theorem lines_add_up_iff (floor : Floor) (registry : List String) (series : Table FiscalSeries)
    (issuers : Table Issuer) (splitItems : List SplitItem) (ops : List FiscalOp) :
    let w := FiscalWorld.start floor registry series issuers splitItems
    invoicing.Every AddsUpBuilt w ops ↔ invoicing.Every HoldsClaimed w ops :=
  Machine.every_iff (I := fun _ => True) (fun w op _ => addsUpBuilt_iff w op) (fun _ _ _ _ => trivial)
    trivial

/-- The VAT that Eva is invoiced for is on no line: the row of the 16 % has none. -/
theorem unlisted_vat : ¬invoicing.Every AddsUpBuilt
    (.start dinner [] ∅ ⟨[⟨1, some "J-1"⟩], by simp⟩ [⟨5, 40, 6⟩, ⟨5, 41, 7⟩])
    [.prepare 0 100 ⟨1, 10, 2, {}, OWN⟩ none] := by
  decide +kernel

end Splite
