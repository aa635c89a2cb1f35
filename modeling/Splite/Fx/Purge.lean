import Splite.Fx.InForce
import Splite.Lib.Query
import Splite.Lib.Silent

/-!
# The purge of exchange rates (`services/purge.js`, beside `services/fx.js`)

`deleteInBatches` on `fx_rates`, a batch at a time, between the events of the service and the writes of
other processes. A batch removes any rows that its `LIMIT` picks of those that have been fetched too long
ago and are not the newest of their currency.

* `newest_eq_of_later`: the newest row stays when only rows go that have a later one.
* `purgeBatch_newest`: every currency keeps its newest row, which the baselines are read from.
* `purge_unnoticed`: a run answers what it answers without its purges, when no row goes before the one
  that supersedes it has come into force.
-/

namespace Splite.Fx

variable {Rate : Type}

/-- The unique index of `fx_rates`, for quote `VES`. -/
def FxRow.key (r : FxRow Rate) : String × String × Day := (r.source, r.base, r.valueDate)

/-- `BATCH`. -/
def BATCH : Nat := 5000

/-- What a batch of the purge finds: the column `fetched_at`, the order its query takes the rows in, and
the time. -/
structure FxPurge (Rate : Type) where
  fetchedAt : FxRow Rate → Int
  order : RowOrder (FxRow Rate)
  now : Int

/-- `ORDER BY base, quote, value_date DESC, fetched_at DESC`: the first row of a currency. -/
def newestFetched (fetchedAt : FxRow Rate → Int) : List (FxRow Rate) → Option (FxRow Rate)
  | [] => none
  | row :: rows =>
    match newestFetched fetchedAt rows with
    | none => some row
    | some row' =>
      if row'.valueDate > row.valueDate ∨
          (row'.valueDate = row.valueDate ∧ fetchedAt row' > fetchedAt row) then some row'
      else some row

/-- `SELECT DISTINCT ON (base, quote) id`. -/
def kept (fetchedAt : FxRow Rate → Int) (rows : List (FxRow Rate)) (row : FxRow Rate) : Bool :=
  (newestFetched fetchedAt (rows.filter fun r => r.base = row.base)).any fun r => r.key = row.key

/-- The rows that a batch removes; `days` is `config.purge.fxRateDays`. -/
def doomed (days : Nat) (p : FxPurge Rate) (rows : List (FxRow Rate)) : List (FxRow Rate) :=
  p.order.limit BATCH (rows.filter fun row =>
    p.fetchedAt row < p.now - days * 86400000 && !kept p.fetchedAt rows row)

/-- `DELETE FROM fx_rates WHERE ctid IN (…)`. -/
def purgeBatch (days : Nat) (p : FxPurge Rate) (rows : List (FxRow Rate)) : List (FxRow Rate) :=
  rows.filter fun row => row.key ∉ (doomed days p rows).map FxRow.key

/-- What happens to the service and its table. -/
inductive FxMove (Rate : Type) where
  | service (e : FxEvent Rate)
  /-- `persist` in another process of the deployment. -/
  | persisted (currency : String) (rate : Rate) (valueDate : Option Day) (now : Int)
  | purge (p : FxPurge Rate)

def FxMove.isPurge : FxMove Rate → Bool
  | .purge _ => true
  | _ => false

section Service

variable [One Rate] (cfg : FxConfig Rate) (days : Nat)

def FxMove.step (s : FxState Rate) : FxMove Rate → FxState Rate × List (Answer Rate)
  | .service e => fxStep cfg s e
  | .persisted currency rate valueDate now =>
    ({ s with clock := now, fxRates := persist s.fxRates currency rate cfg.source valueDate }, [])
  | .purge p => ({ s with clock := p.now, fxRates := purgeBatch days p s.fxRates }, [])

/-- The service, and what writes its table, as a machine. -/
def rates : Machine (FxState Rate) (FxMove Rate) (Answer Rate) := ⟨FxMove.step cfg days⟩

end Service

/-! ## The newest row -/

section Newest

variable {rows : List (FxRow Rate)} {row : FxRow Rate}

/-- The rows of a currency have different days: they are all of one source. -/
def Untied (source : String) (rows : List (FxRow Rate)) : Prop :=
  (∀ r ∈ rows, r.source = source) ∧ (rows.map FxRow.key).Nodup

theorem Untied.sublist {source : String} {rows' : List (FxRow Rate)} (h : Untied source rows)
    (hsub : rows'.Sublist rows) : Untied source rows' :=
  ⟨fun r hr => h.1 r (hsub.subset hr), h.2.sublist (hsub.map _)⟩

/-- Two rows of a currency with one day are one row. -/
theorem Untied.eq_of_day {source : String} {r r' : FxRow Rate} (h : Untied source rows) (hr : r ∈ rows)
    (hr' : r' ∈ rows) (hbase : r.base = r'.base) (hday : r.valueDate = r'.valueDate) : r = r' := by
  refine List.inj_on_of_nodup_map h.2 hr hr' ?_
  simp only [FxRow.key, h.1 r hr, h.1 r' hr', hbase, hday]

theorem newest_isSome (h : row ∈ rows) : (newest rows).isSome = true := by
  cases rows with
  | nil => cases h
  | cons r rows =>
    simp only [newest]
    split
    · rfl
    · split <;> rfl

theorem newest_le : ∀ {rows : List (FxRow Rate)} {row r : FxRow Rate}, newest rows = some row → r ∈ rows →
    r.valueDate ≤ row.valueDate
  | [], _, _, h, _ => by cases h
  | x :: rows, row, r, h, hr => by
    simp only [newest] at h
    cases hnew : newest rows with
    | none =>
      rw [hnew] at h
      cases h
      rcases List.mem_cons.mp hr with rfl | hr
      · exact le_rfl
      · have := newest_isSome hr
        rw [hnew] at this
        cases this
    | some row' =>
      rw [hnew] at h
      dsimp only at h
      by_cases hday : row'.valueDate > x.valueDate
      · rw [if_pos hday] at h
        cases h
        rcases List.mem_cons.mp hr with rfl | hr
        · exact hday.le
        · exact newest_le hnew hr
      · rw [if_neg hday] at h
        cases h
        rcases List.mem_cons.mp hr with rfl | hr
        · exact le_rfl
        · exact (newest_le hnew hr).trans (not_lt.mp hday)

/-- Rows with days of their own, of which those that are missing have a later one that is not. -/
theorem newest_eq_of_later {l r : List (FxRow Rate)} (hsub : l ⊆ r)
    (hdays : ∀ x ∈ r, ∀ y ∈ r, x.valueDate = y.valueDate → x = y)
    (hlater : ∀ x ∈ r, x ∈ l ∨ ∃ y ∈ l, x.valueDate < y.valueDate) : newest l = newest r := by
  cases hr : newest r with
  | none =>
    have hnil : r = [] := by
      by_contra hne
      obtain ⟨x, hx⟩ := List.exists_mem_of_ne_nil r hne
      have := newest_isSome hx
      rw [hr] at this
      cases this
    have hl : l = [] := List.eq_nil_of_subset_nil (hnil ▸ hsub)
    rw [hl]
    rfl
  | some x =>
    have hxr := newest_mem hr
    have hxl : x ∈ l := by
      rcases hlater x hxr with hx | ⟨y, hy, hday⟩
      · exact hx
      · exact absurd (newest_le hr (hsub hy)) (not_le.mpr hday)
    obtain ⟨z, hz⟩ := Option.isSome_iff_exists.mp (newest_isSome hxl)
    have hzl := newest_mem hz
    rw [hz, hdays z (hsub hzl) x hxr (le_antisymm (newest_le hr (hsub hzl)) (newest_le hz hxl))]

theorem newestFetched_spec {fetchedAt : FxRow Rate → Int} : ∀ {rows : List (FxRow Rate)} {row : FxRow Rate},
    newestFetched fetchedAt rows = some row → row ∈ rows ∧ ∀ r ∈ rows, r.valueDate ≤ row.valueDate
  | [], _, h => by cases h
  | x :: rows, row, h => by
    simp only [newestFetched] at h
    cases hnew : newestFetched fetchedAt rows with
    | none =>
      rw [hnew] at h
      cases h
      refine ⟨List.mem_cons_self, fun r hr => ?_⟩
      cases rows with
      | nil =>
        rw [List.mem_singleton.mp hr]
      | cons y rows =>
        simp only [newestFetched] at hnew
        split at hnew
        · cases hnew
        · split at hnew <;> cases hnew
    | some row' =>
      obtain ⟨hmem, hmax⟩ := newestFetched_spec hnew
      rw [hnew] at h
      dsimp only at h
      split at h <;> cases h
      · rename_i hlast
        have hday : x.valueDate ≤ row.valueDate := by
          rcases hlast with hlast | ⟨hlast, -⟩
          · exact hlast.le
          · exact hlast.ge
        exact ⟨List.mem_cons_of_mem _ hmem, List.forall_mem_cons.mpr ⟨hday, hmax⟩⟩
      · rename_i hlast
        have hday : row'.valueDate ≤ x.valueDate := not_lt.mp fun h => hlast (.inl h)
        exact ⟨List.mem_cons_self,
          List.forall_mem_cons.mpr ⟨le_rfl, fun r hr => (hmax r hr).trans hday⟩⟩

theorem newestFetched_isSome (fetchedAt : FxRow Rate → Int) (h : row ∈ rows) :
    (newestFetched fetchedAt rows).isSome = true := by
  cases rows with
  | nil => cases h
  | cons r rows =>
    simp only [newestFetched]
    split
    · rfl
    · split <;> rfl

end Newest

/-! ## What a batch removes -/

section Batch

variable {rows : List (FxRow Rate)} {row : FxRow Rate} {days : Nat} {p : FxPurge Rate} {source : String}

theorem mem_doomed (h : row ∈ doomed days p rows) :
    row ∈ rows ∧ kept p.fetchedAt rows row = false := by
  have hmem := List.mem_filter.mp (RowOrder.mem_of_limit h)
  refine ⟨hmem.1, ?_⟩
  have := hmem.2
  simp only [Bool.and_eq_true, Bool.not_eq_true'] at this
  exact this.2

theorem mem_purgeBatch (h : Untied source rows) :
    row ∈ purgeBatch days p rows ↔ row ∈ rows ∧ row ∉ doomed days p rows := by
  simp only [purgeBatch, List.mem_filter, decide_eq_true_eq, List.mem_map, not_exists, not_and]
  refine and_congr_right fun hrow => ⟨fun hnone hdoomed => hnone row hdoomed rfl, fun hnot r hr hkey => ?_⟩
  exact hnot (List.inj_on_of_nodup_map h.2 (mem_doomed hr).1 hrow hkey ▸ hr)

/-- The newest row of its currency outlives a row that is removed. -/
theorem doomed_superseded (h : Untied source rows) (hrow : row ∈ doomed days p rows) :
    ∃ r ∈ purgeBatch days p rows, r.base = row.base ∧ row.valueDate < r.valueDate := by
  obtain ⟨hmem, hkept⟩ := mem_doomed hrow
  have hsame : row ∈ rows.filter fun r => r.base = row.base := List.mem_filter.mpr ⟨hmem, by simp⟩
  obtain ⟨r, hr⟩ := Option.isSome_iff_exists.mp (newestFetched_isSome p.fetchedAt hsame)
  obtain ⟨hrmem, hmax⟩ := newestFetched_spec hr
  obtain ⟨hrrows, hbase⟩ := List.mem_filter.mp hrmem
  have hbase : r.base = row.base := by simpa using hbase
  have hne : r ≠ row := by
    rintro rfl
    simp [kept, hr] at hkept
  refine ⟨r, (mem_purgeBatch h).mpr ⟨hrrows, fun hdoomed => ?_⟩, hbase,
    lt_of_le_of_ne (hmax row hsame) fun hday => hne (h.eq_of_day hrrows hmem hbase hday.symm)⟩
  have := (mem_doomed hdoomed).2
  simp [kept, hbase, hr] at this

theorem purgeBatch_sublist : (purgeBatch days p rows).Sublist rows := List.filter_sublist

/-- Every currency keeps its newest row. -/
theorem purgeBatch_newest (h : Untied source rows) (base : String) :
    newest ((purgeBatch days p rows).filter fun r => r.base = base) =
      newest (rows.filter fun r => r.base = base) := by
  refine newest_eq_of_later (purgeBatch_sublist.filter _).subset (fun x hx y hy hday => ?_) fun x hx => ?_
  · simp only [List.mem_filter, decide_eq_true_eq] at hx hy
    exact h.eq_of_day hx.1 hy.1 (hx.2.trans hy.2.symm) hday
  · simp only [List.mem_filter, decide_eq_true_eq] at hx
    by_cases hdoomed : x ∈ doomed days p rows
    · obtain ⟨y, hy, hbase, hday⟩ := doomed_superseded h hdoomed
      exact .inr ⟨y, List.mem_filter.mpr ⟨hy, by simp [hbase, hx.2]⟩, hday⟩
    · exact .inl (List.mem_filter.mpr ⟨(mem_purgeBatch h).mpr ⟨hx.1, hdoomed⟩, by simp [hx.2]⟩)

end Batch

/-! ## What a reader sees -/

/-- `l` is `r` without rows that others, which are in force, have superseded. -/
structure Covers (source : String) (today : Day) (l r : List (FxRow Rate)) : Prop where
  sublist : l.Sublist r
  untied : Untied source r
  superseded : ∀ x ∈ r, x ∈ l ∨ ∃ y ∈ l, y.base = x.base ∧ x.valueDate < y.valueDate ∧ y.valueDate ≤ today

namespace Covers

variable {source : String} {today day : Day} {l r : List (FxRow Rate)}

theorem refl (h : Untied source r) : Covers source today r r :=
  ⟨List.Sublist.refl r, h, fun _ hx => .inl hx⟩

theorem later (h : Covers source today l r) (hday : today ≤ day) : Covers source day l r where
  sublist := h.sublist
  untied := h.untied
  superseded x hx := by
    rcases h.superseded x hx with hx | ⟨y, hy, hbase, hlt, hle⟩
    · exact .inl hx
    · exact .inr ⟨y, hy, hbase, hlt, hle.trans hday⟩

/-- The newest row of a currency is the same, among all rows or the ones that are in force. -/
theorem newest_eq (h : Covers source today l r) (base : String) {p : Day → Bool}
    (hp : ∀ d ≤ today, p d = true) :
    newest (l.filter fun x => x.base = base && p x.valueDate) =
      newest (r.filter fun x => x.base = base && p x.valueDate) := by
  refine newest_eq_of_later (h.sublist.filter _).subset (fun x hx y hy hday => ?_) fun x hx => ?_
  · simp only [List.mem_filter, Bool.and_eq_true, decide_eq_true_eq] at hx hy
    exact h.untied.eq_of_day hx.1 hy.1 (hx.2.1.trans hy.2.1.symm) hday
  · simp only [List.mem_filter, Bool.and_eq_true, decide_eq_true_eq] at hx ⊢
    obtain ⟨hxr, hbase, hpx⟩ := hx
    rcases h.superseded x hxr with hxl | ⟨y, hy, hyb, hlt, hle⟩
    · exact .inl ⟨hxl, hbase, hpx⟩
    · exact .inr ⟨y, ⟨hy, hyb.trans hbase, hp _ hle⟩, hlt⟩

theorem inForceRow_eq (h : Covers source today l r) (currency : String) {now : Int}
    (hnow : today ≤ caracasToday now) : inForceRow l currency now = inForceRow r currency now :=
  h.newest_eq currency (p := fun d => d ≤ caracasToday now) fun d hd => by simpa using hd.trans hnow

theorem loadBaselines_eq (h : Covers source today l r) (ok loaded : Bool)
    (lastGood : String → Option Rate) :
    loadBaselines ok loaded l lastGood = loadBaselines ok loaded r lastGood := by
  unfold loadBaselines
  have hnewest : ∀ currency, newest (l.filter fun x => x.base = currency) =
      newest (r.filter fun x => x.base = currency) := fun currency => by
    simpa using h.newest_eq currency (p := fun _ => true) fun _ _ => rfl
  simp only [hnewest]

theorem persist (h : Covers source today l r) (currency : String) (rate : Rate)
    (valueDate : Option Day) :
    Covers source today (Fx.persist l currency rate source valueDate)
      (Fx.persist r currency rate source valueDate) := by
  cases valueDate with
  | none => exact h
  | some day =>
    have hother : ∀ x ∈ r, (!(x.source = source && x.base = currency && x.valueDate = day)) = true ↔
        x.key ≠ (source, currency, day) := by
      intro x _
      simp only [FxRow.key, Bool.not_eq_true', Bool.and_eq_false_iff, decide_eq_false_iff_not, ne_eq,
        Prod.mk.injEq]
      tauto
    simp only [Fx.persist]
    refine ⟨(h.sublist.filter _).append (List.Sublist.refl _), ⟨fun x hx => ?_, ?_⟩, fun x hx => ?_⟩
    · rcases List.mem_append.mp hx with hx | hx
      · exact h.untied.1 x (List.mem_filter.mp hx).1
      · rw [List.mem_singleton.mp hx]
    · rw [List.map_append, List.map_singleton]
      refine List.nodup_append'.mpr ⟨h.untied.2.sublist (List.filter_sublist.map _),
        List.nodup_singleton _, fun key hkey hnew => ?_⟩
      obtain ⟨x, hx, rfl⟩ := List.mem_map.mp hkey
      obtain ⟨hxr, hx⟩ := List.mem_filter.mp hx
      exact (hother x hxr).mp hx (List.mem_singleton.mp hnew)
    · rcases List.mem_append.mp hx with hx | hx
      · obtain ⟨hxr, hkept⟩ := List.mem_filter.mp hx
        rcases h.superseded x hxr with hxl | ⟨y, hy, hyb, hlt, hle⟩
        · exact .inl (List.mem_append_left _ (List.mem_filter.mpr ⟨hxl, hkept⟩))
        · by_cases hkey : y.key = (source, currency, day)
          · -- The row that supersedes it is written again, with the same day.
            simp only [FxRow.key, Prod.mk.injEq] at hkey
            obtain ⟨-, hbase, hday⟩ := hkey
            exact .inr ⟨_, List.mem_append_right _ List.mem_cons_self, hbase.symm.trans hyb,
              hday ▸ hlt, hday ▸ hle⟩
          · refine .inr ⟨y, List.mem_append_left _ (List.mem_filter.mpr ⟨hy, ?_⟩), hyb, hlt, hle⟩
            exact (hother y (h.sublist.subset hy)).mpr hkey
      · exact .inl (List.mem_append_right _ hx)

/-- A batch of the purge takes more rows away. -/
theorem purge (h : Covers source today l r) {days : Nat} {p : FxPurge Rate}
    (hdoomed : ∀ x ∈ doomed days p l, ∃ y ∈ l, y.base = x.base ∧ x.valueDate < y.valueDate ∧
      y.valueDate ≤ today) : Covers source today (purgeBatch days p l) r := by
  have huntied := h.untied.sublist h.sublist
  -- Of what supersedes a row in the table, the newest that is in force is not removed.
  have hstays : ∀ y ∈ l, y.valueDate ≤ today →
      ∃ z ∈ purgeBatch days p l, z.base = y.base ∧ y.valueDate ≤ z.valueDate ∧ z.valueDate ≤ today := by
    intro y hy hle
    have hmem : y ∈ l.filter fun x => x.base = y.base && x.valueDate ≤ today :=
      List.mem_filter.mpr ⟨hy, by simpa using hle⟩
    obtain ⟨z, hz⟩ := Option.isSome_iff_exists.mp (newest_isSome hmem)
    have hzmem := newest_mem hz
    simp only [List.mem_filter, Bool.and_eq_true, decide_eq_true_eq] at hzmem
    obtain ⟨hzl, hzb, hzle⟩ := hzmem
    refine ⟨z, (mem_purgeBatch huntied).mpr ⟨hzl, fun hz' => ?_⟩, hzb, newest_le hz hmem, hzle⟩
    obtain ⟨x, hx, hxb, hlt, hxle⟩ := hdoomed z hz'
    have hxmem : x ∈ l.filter fun x => x.base = y.base && x.valueDate ≤ today :=
      List.mem_filter.mpr ⟨hx, by simpa [hxb, hzb] using hxle⟩
    exact absurd (newest_le hz hxmem) (not_le.mpr hlt)
  refine ⟨purgeBatch_sublist.trans h.sublist, h.untied, fun x hx => ?_⟩
  have hgone : ∀ y ∈ l, y.base = x.base → x.valueDate < y.valueDate → y.valueDate ≤ today →
      ∃ z ∈ purgeBatch days p l, z.base = x.base ∧ x.valueDate < z.valueDate ∧ z.valueDate ≤ today := by
    intro y hy hyb hlt hle
    obtain ⟨z, hz, hzb, hyz, hzle⟩ := hstays y hy hle
    exact ⟨z, hz, hzb.trans hyb, lt_of_lt_of_le hlt hyz, hzle⟩
  rcases h.superseded x hx with hxl | ⟨y, hy, hyb, hlt, hle⟩
  · by_cases hxd : x ∈ doomed days p l
    · obtain ⟨y, hy, hyb, hlt, hle⟩ := hdoomed x hxd
      exact .inr (hgone y hy hyb hlt hle)
    · exact .inl ((mem_purgeBatch huntied).mpr ⟨hxl, hxd⟩)
  · exact .inr (hgone y hy hyb hlt hle)

end Covers

/-! ## Side by side -/

section SideBySide

variable {cfg : FxConfig Rate} {today : Day}

/-- What a loop of `refreshAll` has, over two tables. -/
structure Alike (cfg : FxConfig Rate) (today : Day) (r r' : Refresh Rate) : Prop where
  lastGood : r.lastGood = r'.lastGood
  accepted : r.accepted = r'.accepted
  covers : Covers cfg.source today r.fxRates r'.fxRates

theorem Alike.acceptRate {r r' : Refresh Rate} (h : Alike cfg today r r') (flight : Flight Rate)
    (valueDate : Option Day) (entry : String × Rate) :
    Alike cfg today (acceptRate cfg flight valueDate r entry) (acceptRate cfg flight valueDate r' entry) := by
  obtain ⟨currency, rate⟩ := entry
  simp only [Fx.acceptRate, h.lastGood]
  split
  · exact h
  split
  · exact h
  split
  · exact h
  · refine ⟨rfl, by rw [h.accepted], ?_⟩
    dsimp only
    split
    · exact h.covers.persist currency rate valueDate
    · exact h.covers

theorem Alike.foldl {r r' : Refresh Rate} (h : Alike cfg today r r') (flight : Flight Rate)
    (valueDate : Option Day) (rates : List (String × Rate)) :
    Alike cfg today (rates.foldl (Fx.acceptRate cfg flight valueDate) r)
      (rates.foldl (Fx.acceptRate cfg flight valueDate) r') := by
  induction rates generalizing r r' with
  | nil => exact h
  | cons entry rates ih => exact ih (h.acceptRate flight valueDate entry)

/-- A refresh throws over both tables, or over none. -/
theorem refreshAll_alike (flight : Flight Rate) (lastGood : String → Option Rate)
    {l r : List (FxRow Rate)} (h : Covers cfg.source today l r) :
    (refreshAll cfg flight lastGood l = none ∧ refreshAll cfg flight lastGood r = none) ∨
    ∃ a b, refreshAll cfg flight lastGood l = some a ∧ refreshAll cfg flight lastGood r = some b ∧
      Alike cfg today a b := by
  unfold refreshAll
  cases flight.page with
  | none => exact .inl ⟨rfl, rfl⟩
  | some page =>
    obtain ⟨rates, valueDate⟩ := page
    have hstart : Alike cfg today { lastGood, fxRates := l, accepted := fun _ => none }
        { lastGood, fxRates := r, accepted := fun _ => none } := ⟨rfl, rfl, h⟩
    have halike := hstart.foldl flight valueDate rates
    simp only
    rw [halike.accepted]
    split
    · exact .inl ⟨rfl, rfl⟩
    · exact .inr ⟨_, _, rfl, rfl, halike⟩

/-- A flight lands alike on a table with more rows. -/
theorem land_covers (flight : Flight Rate) (now : Int) {s : FxState Rate} {rows : List (FxRow Rate)}
    (h : Covers cfg.source today s.fxRates rows) :
    ∃ rows', land cfg flight now { s with fxRates := rows } =
        ({ (land cfg flight now s).1 with fxRates := rows' }, (land cfg flight now s).2) ∧
      Covers cfg.source today (land cfg flight now s).1.fxRates rows' := by
  have hload := h.loadBaselines_eq flight.baselines s.baselineLoaded s.lastGood
  unfold land refreshed
  dsimp only
  rw [← hload]
  rcases refreshAll_alike flight (loadBaselines flight.baselines s.baselineLoaded s.fxRates s.lastGood) h with
    ⟨hl, hr⟩ | ⟨a, b, hl, hr, halike⟩
  · rw [hl, hr]
    exact ⟨rows, rfl, h⟩
  · rw [hl, hr]
    dsimp only
    rw [← halike.accepted, ← halike.lastGood]
    exact ⟨b.fxRates, rfl, halike.covers⟩

variable (cfg) in
/-- The clock does not go back, and all rows are of the one source of the deployment. -/
def Timely (s : FxState Rate) : FxMove Rate → Prop
  | .service (.stored rows now) => s.clock ≤ now ∧ Untied cfg.source rows
  | .service e => Clocked s e
  | .persisted _ _ _ now => s.clock ≤ now
  | .purge p => s.clock ≤ p.now

instance (source : String) (rows : List (FxRow Rate)) : Decidable (Untied source rows) :=
  inferInstanceAs (Decidable (_ ∧ _))

instance (s : FxState Rate) : ∀ m, Decidable (Timely cfg s m)
  | .service (.stored rows now) => inferInstanceAs (Decidable (s.clock ≤ now ∧ Untied cfg.source rows))
  | .service (.call id currency now) => inferInstanceAs (Decidable (Clocked s (.call id currency now)))
  | .service (.landed flight now) => inferInstanceAs (Decidable (Clocked s (.landed flight now)))
  | .service (.queried id ok now) => inferInstanceAs (Decidable (Clocked s (.queried id ok now)))
  | .service (.answered id now) => inferInstanceAs (Decidable (Clocked s (.answered id now)))
  | .persisted _ _ _ now => inferInstanceAs (Decidable (s.clock ≤ now))
  | .purge p => inferInstanceAs (Decidable (s.clock ≤ p.now))

/-- What a purge removes has been superseded by a row that is in force. -/
def Superseding (days : Nat) (s : FxState Rate) : FxMove Rate → Prop
  | .purge p => ∀ x ∈ doomed days p s.fxRates, ∃ y ∈ s.fxRates,
      y.base = x.base ∧ x.valueDate < y.valueDate ∧ y.valueDate ≤ caracasToday p.now
  | _ => True

instance (days : Nat) (s : FxState Rate) : ∀ m, Decidable (Superseding days s m)
  | .purge p => inferInstanceAs (Decidable (∀ x ∈ doomed days p s.fxRates, ∃ y ∈ s.fxRates,
      y.base = x.base ∧ x.valueDate < y.valueDate ∧ y.valueDate ≤ caracasToday p.now))
  | .service _ | .persisted .. => isTrue trivial

/-- An event of the service does the same, and answers the same, on a table with more rows. -/
theorem fxStep_covers [One Rate] (e : FxEvent Rate) {s : FxState Rate} {rows : List (FxRow Rate)}
    (clock : Int) (h : Covers cfg.source (caracasToday s.clock) s.fxRates rows)
    (htimely : Timely cfg s (.service e)) :
    ∃ rows', fxStep cfg { s with fxRates := rows, clock } e =
        ({ (fxStep cfg s e).1 with fxRates := rows' }, (fxStep cfg s e).2) ∧
      (fxStep cfg s e).1.clock = e.now ∧
      Covers cfg.source (caracasToday e.now) (fxStep cfg s e).1.fxRates rows' := by
  have hnow : s.clock ≤ e.now := by
    cases e <;> exact htimely.1
  have h := h.later (caracasToday_mono hnow)
  cases e with
  | call id currency now =>
    have hask : ∀ rows clock, getRateFor cfg { s with fxRates := rows, clock } currency now =
        getRateFor cfg s currency now := fun _ _ => rfl
    refine ⟨rows, ?_⟩
    simp only [fxStep, FxEvent.now, hask]
    rw [show ({ s with clock := now } : FxState Rate) = { s with fxRates := s.fxRates, clock := now } from rfl,
      hask]
    cases getRateFor cfg s currency now with
    | done quote => exact ⟨rfl, rfl, h⟩
    | wait phase => exact ⟨rfl, rfl, h⟩
  | landed flight now =>
    simp only [fxStep, FxEvent.now] at h ⊢
    cases s.inFlight with
    | true =>
      obtain ⟨rows', hland, hcovers⟩ := land_covers flight now (s := { s with clock := now }) h
      refine ⟨rows', hland, ?_, hcovers⟩
      simp only [if_true]
      unfold land
      split <;> rfl
    | false => exact ⟨rows, rfl, rfl, h⟩
  | queried id ok now =>
    have hquery : query id ok now rows = query id ok now s.fxRates := by
      funext c
      unfold query
      rw [show inForceRow rows c.currency now = inForceRow s.fxRates c.currency now from
        (h.inForceRow_eq c.currency le_rfl).symm]
    refine ⟨rows, ?_, rfl, h⟩
    simp only [fxStep, hquery]
  | answered id now => exact ⟨rows, rfl, rfl, h⟩
  | stored rows' now => exact ⟨rows', rfl, rfl, .refl htimely.2⟩

/-- The run with its purges, and the one without them. -/
def Beside (cfg : FxConfig Rate) (s s' : FxState Rate) : Prop :=
  ∃ rows clock, s' = { s with fxRates := rows, clock } ∧ clock ≤ s.clock ∧
    Covers cfg.source (caracasToday s.clock) s.fxRates rows

theorem rates_unnoticed [One Rate] (cfg : FxConfig Rate) (days : Nat) :
    (rates cfg days).Unnoticed FxMove.isPurge (fun s m => Timely cfg s m ∧ Superseding days s m)
      (Beside cfg) where
  left s s' m h hG hm := by
    obtain ⟨rows, clock, rfl, hclock, hcovers⟩ := h
    cases m with
    | purge p =>
      exact ⟨⟨rows, clock, rfl, hclock.trans hG.1,
        (hcovers.later (caracasToday_mono hG.1)).purge hG.2⟩, rfl⟩
    | _ => cases hm
  both s s' m h hG hm := by
    obtain ⟨rows, clock, rfl, hclock, hcovers⟩ := h
    cases m with
    | service e =>
      obtain ⟨rows', hstep, hnow, hcovers'⟩ := fxStep_covers e clock hcovers hG.1
      change Beside cfg (fxStep cfg s e).1 (fxStep cfg { s with fxRates := rows, clock } e).1 ∧
        (fxStep cfg s e).2 = (fxStep cfg { s with fxRates := rows, clock } e).2
      rw [hstep]
      exact ⟨⟨rows', _, rfl, le_rfl, hnow ▸ hcovers'⟩, rfl⟩
    | persisted currency rate valueDate now =>
      exact ⟨⟨_, now, rfl, le_rfl,
        (hcovers.later (caracasToday_mono hG.1)).persist currency rate valueDate⟩, rfl⟩
    | purge p => cases hm

/-- The rows of a deployment stay of its one source, one for each day of a currency. -/
theorem untied_step [One Rate] {days : Nat} (s : FxState Rate) (m : FxMove Rate)
    (h : Untied cfg.source s.fxRates) (htimely : Timely cfg s m) :
    Untied cfg.source ((rates cfg days).step s m).1.fxRates := by
  cases m with
  | service e =>
    obtain ⟨rows, -, -, hcovers⟩ := fxStep_covers e s.clock (.refl h) htimely
    exact hcovers.untied.sublist hcovers.sublist
  | persisted currency rate valueDate now =>
    have hcovers : Covers cfg.source 0 s.fxRates s.fxRates := .refl h
    exact (hcovers.persist currency rate valueDate).untied
  | purge p => exact h.sublist purgeBatch_sublist

/-- Every currency has the newest row that it had before a purge. -/
def KeepsNewest [One Rate] (cfg : FxConfig Rate) (days : Nat) (s : FxState Rate) (m : FxMove Rate) : Prop :=
  m.isPurge = true → ∀ base,
    newest (((rates cfg days).step s m).1.fxRates.filter fun r => r.base = base) =
      newest (s.fxRates.filter fun r => r.base = base)

/-- In every run of a deployment with one source of rates, whatever rows the batches of the purge pick and
whenever they run: each currency keeps its newest row, from which the baselines are read. And the run
answers what it answers without its purges, if none of them removes a row before one that supersedes it
has come into force. -/
theorem purge_unnoticed [One Rate] (cfg : FxConfig Rate) (days : Nat) {rows : List (FxRow Rate)}
    (hrows : Untied cfg.source rows) (clock : Int) {moves : List (FxMove Rate)}
    (htimely : (rates cfg days).Every (Timely cfg) (FxState.start rows clock) moves) :
    (rates cfg days).Every (KeepsNewest cfg days) (FxState.start rows clock) moves ∧
    ((rates cfg days).Every (Superseding days) (FxState.start rows clock) moves →
      (rates cfg days).outputs (FxState.start rows clock) moves =
        (rates cfg days).outputs (FxState.start rows clock) (moves.filter fun m => !m.isPurge)) := by
  constructor
  · refine Machine.every_imp (I := fun s => Untied cfg.source s.fxRates) untied_step
      (fun s m h _ hpurge base => ?_) hrows htimely
    cases m with
    | purge p => exact purgeBatch_newest h base
    | _ => cases hpurge
  · intro hsuperseding
    exact (Machine.outputs_unnoticed (rates_unnoticed cfg days)
      ⟨rows, clock, rfl, le_rfl, .refl hrows⟩ (Machine.every_and.mpr ⟨htimely, hsuperseding⟩)).2

end SideBySide

/-! ## After an outage -/

/-- A rate in hundredths for dollars on a day. -/
def dollars (rate : Nat) (day : Day) : FxRow Nat := ⟨"BCV", "USD", rate, day⟩

/-- A purge at noon of a day; rows have been fetched on the days that they are for. -/
def purgeOn (day : Day) : FxPurge Nat where
  fetchedAt r := r.valueDate * 86400000
  order := .stored
  now := day * 86400000 + 57600000

/-- Rates of two days, purged when the first has been superseded for a year; the page is unreachable. -/
def purgedOutage : List (FxMove Nat) :=
  [.purge (purgeOn 400),
   .service (.call 1 "USD" (afternoon 400)),
   .service (.landed { pageAt (afternoon 400) [] none with page := none } (afternoon 400)),
   .service (.queried 1 true (afternoon 400)),
   .service (.answered 1 (afternoon 400))]

theorem outage_unnoticed :
    (rates defaultConfig 180).outputs (FxState.start [dollars 3600 10, dollars 3700 398] 0) purgedOutage =
      (rates defaultConfig 180).outputs (FxState.start [dollars 3600 10, dollars 3700 398] 0)
        (purgedOutage.filter fun m => !m.isPurge) :=
  (purge_unnoticed defaultConfig 180 (by decide) 0 (by decide)).2 (by decide)

/-- When the service has been off for longer than rates are kept, a purge between the first publication
and its day leaves a call without the old rate that it would have had. -/
example :
    let moves : List (FxMove Nat) :=
      [.service (.call 1 "USD" (afternoon 400)),
       .service (.landed (pageAt (afternoon 400) [("USD", 3700)] (some 401)) (afternoon 400)),
       .purge { purgeOn 400 with now := afternoon 400 },
       .service (.queried 1 true (afternoon 400)),
       .service (.answered 1 (afternoon 400))]
    ((rates defaultConfig 180).outputs (FxState.start [dollars 3600 10] 0) moves).map Answer.quote = [none] ∧
    ((rates defaultConfig 180).outputs (FxState.start [dollars 3600 10] 0)
      (moves.filter fun m => !m.isPurge)).map (fun a => a.quote.map Quote.rate) = [some 3600] := by
  decide

end Splite.Fx
