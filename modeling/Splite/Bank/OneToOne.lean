import Splite.Bank.Reconciliation

/-!
# One movement, one claim

* `bankRule`: what a transaction has locked is at its commit as it was.
* `reconciled`: each movement backs one payment, and each claim is credited once.
-/

namespace Splite.Bank

/-! ## What a statement does -/

/-- The claim is still pending, as it was locked. -/
def HasClaim (s : Db) (claimId : Uuid) (claim : Payment) : Prop :=
  s.payments.find? claimId = some claim ∧ claim.status = .pending

/-- The bill of the claim is still open, as it was locked. -/
def HasBill (s : Db) (claim : Payment) (bill : Bill) : Prop :=
  s.bills.find? claim.billId = some bill ∧ bill.status = .open

/-- A confirmation by the bank has a movement. -/
def Confirmation.Backed (c : Confirmation) (movementId : Option Uuid) : Prop :=
  c.via = .bank → movementId.isSome = true

/-- What a confirmation knows of the rows that it has locked. -/
def ConfirmStage.Sound (s : Db) (c : Confirmation) : ConfirmStage → Prop
  | .lockClaim => c.Backed c.bankMovementId
  | .applyBill claim => c.Backed c.bankMovementId ∧ HasClaim s c.claimId claim
  | .suggest claim bill => c.Backed c.bankMovementId ∧ HasClaim s c.claimId claim ∧ HasBill s claim bill
  | .mark claim bill movementId =>
    c.Backed movementId ∧ HasClaim s c.claimId claim ∧ HasBill s claim bill
  | .commit claim bill marked => c.Backed marked ∧ HasClaim s c.claimId claim ∧ HasBill s claim bill ∧
    ∀ id ∈ marked, freeMovement s c.restaurantId id = true

def BankPhase.Sound (b : BankDb) : BankPhase → Prop
  | .confirming c _ stage => stage.Sound b.db c
  | _ => True

/-- No two calls have locked one row. -/
structure BankPhase.Apart (t u : BankPhase) : Prop where
  claim : ∀ id, t.holdsClaim id = true → u.holdsClaim id = false
  bill : ∀ id, t.holdsBill id = true → u.holdsBill id = false
  movement : ∀ id, t.holdsMovement id = true → u.holdsMovement id = false

/-- The claim that an event resolves. -/
def BankEvent.resolves : BankEvent → Option Uuid
  | .confirmed _ claimId _ => some claimId
  | .rejected claimId => some claimId
  | _ => none

/-- What a statement of a call commits and answers. -/
inductive Does (b : BankDb) (us : List BankPhase) (t : BankPhase) :
    BankDb → List BankEvent → Prop
  /-- Claims, bills and movements are as they were. -/
  | quiet {b' : BankDb} {answer : List BankEvent} : b'.db.payments = b.db.payments →
      b'.db.bills = b.db.bills → b'.db.movements = b.db.movements →
      (∀ e ∈ answer, e.resolves = none) → (∀ claimId err, .skipped claimId err ∈ answer → b' = b) →
      Does b us t b' answer
  /-- A movement comes in. -/
  | inserted {id restaurantId : Uuid} {movements : Table BankMovement} {reports : Table MovementReport} :
      b.db.movements.insert? ⟨id, restaurantId, none⟩ = some movements →
      Does b us t { b with db := { b.db with movements }, reports } []
  | rejected {restaurantId claimId : Uuid} {reason : Option String} {moved : Moved} {db : Db} :
      (rejectClaim restaurantId claimId reason).run b.db = .ok moved db →
      (∀ u ∈ us, u.holdsClaim claimId = false) → Does b us t { b with db } [.rejected claimId]
  | confirmed {c : Confirmation} {caller : Confirmer} {claim : Payment} {bill : Bill}
      {marked : Option Uuid} {receipt : PaymentReceipt} {db : Db} :
      t = .confirming c caller (.commit claim bill marked) →
      (confirmWith c.restaurantId c.claimId c.via marked).run b.db = .ok receipt db →
      Does b us t { b with db } [.confirmed c.via c.claimId marked]

section Statements

variable {b b' : BankDb} {us : List BankPhase} {t t' u : BankPhase} {answer : List BankEvent}
  {c : Confirmation} {caller : Confirmer} {stage : ConfirmStage} {claimId : Uuid} {err : Err}

theorem Does.unchanged (hquiet : ∀ e ∈ answer, e.resolves = none) : Does b us t b answer :=
  .quiet rfl rfl rfl hquiet fun _ _ _ => rfl

theorem Does.silent : Does b us t b [] := .unchanged fun _ he => absurd he List.not_mem_nil

theorem fails_does :
    Does b us t ((caller.fails b claimId err).committed b) (caller.fails b claimId err).answer := by
  cases caller with
  | staff => exact .unchanged (by simp [Confirmer.fails, Advance.answer, BankEvent.resolves])
  | run r => exact .unchanged (by simp [Confirmer.fails, Advance.answer, BankEvent.resolves])

theorem stage_does (ht : t = .confirming c caller stage) :
    Does b us t ((stage.next b us c caller).committed b) (stage.next b us c caller).answer := by
  unfold ConfirmStage.next
  split
  · exact fails_does
  · split
    · split
      · exact .silent
      · split
        · exact .silent
        · exact fails_does
    · split
      · exact .silent
      · split
        · exact .silent
        · exact fails_does
    · exact .silent
    · exact .silent
    · split
      · exact .silent
      · split
        · exact .silent
        · exact fails_does
    · split
      · rename_i hrun
        cases caller with
        | staff => exact .confirmed ht hrun
        | run r => exact .confirmed ht hrun
      · exact fails_does

theorem insertMovement_does {connection : BankConnection} {id : Uuid} {row : MovementRow} {now : Time}
    (h : b.insertMovement connection id row now = .ok b') : Does b us t b' [] := by
  unfold BankDb.insertMovement at h
  split at h
  · cases h
  · split at h
    · cases h
    · split at h
      · cases h
        exact .silent
      · split at h
        · rename_i movements reports hins _
          cases h
          exact .inserted hins
        · cases h

theorem decided_does {restaurantId : Uuid} {input : RunInput} {claims : List PendingClaim}
    {movements : List MovementShape} :
    Does b us t ((decided b restaurantId input claims movements).committed b)
      (decided b restaurantId input claims movements).answer := by
  unfold decided
  split
  · exact .unchanged (by simp [Advance.answer, BankEvent.resolves])
  · exact .silent

theorem next_does : Does b us t ((t.next b us).committed b) (t.next b us).answer := by
  cases t with
  | begun call =>
    cases call with
    | reconcile restaurantId input => exact .silent
    | ingest connection rows input => exact .silent
    | confirmClaim restaurantId claimId => exact .silent
    | rejectClaim restaurantId claimId reason =>
      unfold BankPhase.next
      dsimp only
      split
      · exact .silent
      · rename_i hfree
        split
        · rename_i hrun
          refine .rejected hrun fun u hu => Bool.eq_false_iff.mpr fun hholds => ?_
          exact hfree (List.any_eq_true.mpr ⟨u, hu, hholds⟩)
        · exact .unchanged (by simp [Advance.answer, BankEvent.resolves])
  | inserting connection rows input =>
    cases rows with
    | nil => exact .silent
    | cons row rows =>
      unfold BankPhase.next
      dsimp only
      split
      · rename_i b' hins
        exact insertMovement_does hins
      · exact .unchanged (by simp [Advance.answer, BankEvent.resolves])
  | reading restaurantId input claims movements =>
    cases claims with
    | none =>
      cases movements with
      | none =>
        unfold BankPhase.next
        dsimp only
        split <;> exact .silent
      | some movements => exact decided_does
    | some claims =>
      cases movements with
      | none => exact decided_does
      | some movements => exact decided_does
  | noting run decisions =>
    cases decisions with
    | nil => exact .silent
    | cons d decisions =>
      exact .quiet rfl rfl rfl (fun _ he => absurd he List.not_mem_nil) fun _ _ he =>
        absurd he List.not_mem_nil
  | loop run =>
    unfold BankPhase.next
    dsimp only
    split
    · exact .unchanged (by simp [Advance.answer, BankEvent.resolves])
    · exact .silent
  | confirming c caller stage => exact stage_does rfl
  | flagging claimId run =>
    unfold BankPhase.next
    dsimp only
    split
    · exact .unchanged (by simp [Advance.answer, BankEvent.resolves])
    · exact .silent

/-- A call that goes on locks no row that another one has locked. -/
structure Acquires (us : List BankPhase) (t t' : BankPhase) : Prop where
  claim : ∀ id, t'.holdsClaim id = true → t.holdsClaim id = true ∨ ∀ u ∈ us, u.holdsClaim id = false
  bill : ∀ id, t'.holdsBill id = true → t.holdsBill id = true ∨ ∀ u ∈ us, u.holdsBill id = false
  movement : ∀ id, t'.holdsMovement id = true →
    t.holdsMovement id = true ∨ ∀ u ∈ us, u.holdsMovement id = false

/-- A phase that has no row locked. -/
def BankPhase.Unlocked (t : BankPhase) : Prop :=
  ∀ id, t.holdsClaim id = false ∧ t.holdsBill id = false ∧ t.holdsMovement id = false

theorem Acquires.of_unlocked (h : t'.Unlocked) : Acquires us t t' :=
  ⟨fun id hid => by simp [(h id).1] at hid, fun id hid => by simp [(h id).2.1] at hid,
    fun id hid => by simp [(h id).2.2] at hid⟩

theorem not_any_holds {holds : BankPhase → Bool} (h : ¬us.any holds = true) :
    ∀ u ∈ us, holds u = false := fun u hu =>
  Bool.eq_false_iff.mpr fun hholds => h (List.any_eq_true.mpr ⟨u, hu, hholds⟩)

theorem fails_goes (h : caller.fails b claimId err = .goes b' t' answer) :
    t'.Sound b' ∧ Acquires us t t' := by
  cases caller with
  | staff => cases h
  | run r =>
    cases h
    exact ⟨trivial, .of_unlocked fun _ => ⟨rfl, rfl, rfl⟩⟩

theorem stage_goes (hstage : stage.Sound b.db c)
    (h : stage.next b us c caller = .goes b' t' answer) :
    t'.Sound b' ∧ Acquires us (.confirming c caller stage) t' := by
  unfold ConfirmStage.next at h
  split at h
  · exact fails_goes h
  · split at h
    · split at h
      · cases h
      · rename_i hfree
        split at h
        · rename_i claim _ hlock
          cases h
          obtain ⟨hclaim, -, hpending, -⟩ := lockPendingClaim_ok hlock
          refine ⟨⟨hstage, hclaim, hpending⟩, fun id hid => .inr ?_, nofun, nofun⟩
          obtain rfl : c.claimId = id := by simpa [BankPhase.holdsClaim] using hid
          exact not_any_holds hfree
        · exact fails_goes h
    · rename_i claim _
      split at h
      · cases h
      · rename_i hfree
        split at h
        · rename_i bill _ hrun
          cases h
          simp only [Tx.bind_ok, Tx.pure_ok] at hrun
          obtain ⟨applied, _, happly, _, _, -, rfl, -⟩ := hrun
          obtain ⟨hbill, -, hopen, -⟩ := applyToBill_ok happly
          refine ⟨⟨hstage.1, hstage.2, (bill?_eq_some.mp hbill).1, hopen⟩, fun id hid => .inl hid,
            fun id hid => .inr ?_, nofun⟩
          obtain rfl : claim.billId = id := by simpa [BankPhase.holdsBill] using hid
          exact not_any_holds hfree
        · exact fails_goes h
    · cases h
      refine ⟨⟨fun hbank => ?_, hstage.2⟩, fun id hid => .inl hid, fun id hid => .inl hid, nofun⟩
      obtain ⟨id, hid⟩ := Option.isSome_iff_exists.mp (hstage.1 hbank)
      simp [Db.backingMovement?, hid]
    · cases h
      exact ⟨⟨hstage.1, hstage.2.1, hstage.2.2, nofun⟩, fun id hid => .inl hid,
        fun id hid => .inl hid, fun id hid => by simp [BankPhase.holdsMovement] at hid⟩
    · split at h
      · cases h
      · rename_i hfree
        split at h
        · rename_i hrun
          cases h
          obtain ⟨-, -, -, hbank⟩ := markMovement_ok hrun
          refine ⟨⟨fun hvia => ?_, hstage.2.1, hstage.2.2, fun id hid => ?_⟩, fun id hid => .inl hid,
            fun id hid => .inl hid, fun id hid => .inr ?_⟩
          · rw [if_pos (hbank hvia)]
            rfl
          · split at hid
            · rename_i hmovement
              obtain rfl := Option.some.inj hid
              exact hmovement
            · cases hid
          · simp only [BankPhase.holdsMovement, decide_eq_true_eq] at hid
            split at hid
            · obtain rfl := Option.some.inj hid
              exact not_any_holds hfree
            · cases hid
        · exact fails_goes h
    · split at h
      · cases caller with
        | staff => cases h
        | run r =>
          cases h
          exact ⟨trivial, .of_unlocked fun _ => ⟨rfl, rfl, rfl⟩⟩
      · exact fails_goes h

theorem decided_goes {restaurantId : Uuid} {input : RunInput} {claims : List PendingClaim}
    {movements : List MovementShape}
    (h : decided b restaurantId input claims movements = .goes b' t' answer) :
    t'.Sound b' ∧ Acquires us t t' := by
  unfold decided at h
  split at h <;> cases h
  exact ⟨trivial, .of_unlocked fun _ => ⟨rfl, rfl, rfl⟩⟩

/-- A call that goes on knows of the rows that it has locked what it has found, and has locked only
what was free. -/
theorem next_goes (ht : t.Sound b) (h : t.next b us = .goes b' t' answer) :
    t'.Sound b' ∧ Acquires us t t' := by
  cases t with
  | confirming c caller stage => exact stage_goes ht h
  | begun call =>
    cases call with
    | reconcile restaurantId input =>
      cases h
      exact ⟨trivial, .of_unlocked fun _ => ⟨rfl, rfl, rfl⟩⟩
    | ingest connection rows input =>
      cases h
      exact ⟨trivial, .of_unlocked fun _ => ⟨rfl, rfl, rfl⟩⟩
    | confirmClaim restaurantId claimId =>
      cases h
      exact ⟨nofun, .of_unlocked fun _ => ⟨rfl, rfl, rfl⟩⟩
    | rejectClaim restaurantId claimId reason =>
      unfold BankPhase.next at h
      dsimp only at h
      split at h
      · cases h
      · split at h <;> cases h
  | inserting connection rows input =>
    cases rows with
    | nil =>
      cases h
      exact ⟨trivial, .of_unlocked fun _ => ⟨rfl, rfl, rfl⟩⟩
    | cons row rows =>
      unfold BankPhase.next at h
      dsimp only at h
      split at h <;> cases h
      exact ⟨trivial, .of_unlocked fun _ => ⟨rfl, rfl, rfl⟩⟩
  | reading restaurantId input claims movements =>
    cases claims with
    | none =>
      cases movements with
      | none =>
        unfold BankPhase.next at h
        dsimp only at h
        split at h <;> cases h
        · exact ⟨trivial, .of_unlocked fun _ => ⟨rfl, rfl, rfl⟩⟩
        · exact ⟨trivial, .of_unlocked fun _ => ⟨rfl, rfl, rfl⟩⟩
      | some movements => exact decided_goes h
    | some claims =>
      cases movements with
      | none => exact decided_goes h
      | some movements => exact decided_goes h
  | noting run decisions =>
    cases decisions with
    | nil =>
      cases h
      exact ⟨trivial, .of_unlocked fun _ => ⟨rfl, rfl, rfl⟩⟩
    | cons d decisions =>
      cases h
      exact ⟨trivial, .of_unlocked fun _ => ⟨rfl, rfl, rfl⟩⟩
  | loop run =>
    unfold BankPhase.next at h
    dsimp only at h
    split at h <;> cases h
    exact ⟨fun _ => rfl, .of_unlocked fun _ => ⟨rfl, rfl, rfl⟩⟩
  | flagging claimId run =>
    unfold BankPhase.next at h
    dsimp only at h
    split at h <;> cases h
    · exact ⟨trivial, .of_unlocked fun _ => ⟨rfl, rfl, rfl⟩⟩
    · exact ⟨trivial, .of_unlocked fun _ => ⟨rfl, rfl, rfl⟩⟩

end Statements

/-! ## Every interleaving -/

/-- Each movement backs one payment, and no payment has two. -/
def OneToOne (s : Db) : Prop :=
  ∀ m ∈ s.movements, ∀ m' ∈ s.movements, ∀ claimId,
    m.matchedPaymentId = some claimId → m'.matchedPaymentId = some claimId → m = m'

section Frames

variable {s s' : Db} {b b' : BankDb} {us : List BankPhase} {t u : BankPhase}
  {answer : List BankEvent} {restaurantId claimId : Uuid} {via : ConfirmedVia}
  {marked : Option Uuid} {claim : Payment} {bill : Bill} {reason : Option String} {moved : Moved}

/-- A confirmation links a movement at most, and to a payment that has none. -/
theorem Confirms.oneToOne (h : Confirms s s' restaurantId claimId via marked claim bill)
    (hs : OneToOne s) : OneToOne s' := by
  have hcases : ∀ m ∈ s'.movements, m ∈ s.movements ∨
      ∃ m₀ ∈ s.movements, some m.id = marked ∧ freeMovement s restaurantId m.id = true ∧
        m = { m₀ with matchedPaymentId := some claimId } := by
    intro m hm
    have hfind : s'.movements.find? m.id = some m := Table.find?_eq_some.mpr ⟨hm, rfl⟩
    rw [h.linked, Option.map_eq_some_iff] at hfind
    obtain ⟨m₀, hm₀, heq⟩ := hfind
    split at heq
    · rename_i hlink
      exact .inr ⟨m₀, Table.find?_mem hm₀, hlink.1, freeMovement_iff.mpr ⟨m₀, hm₀, hlink.2⟩, heq.symm⟩
    · exact .inl (heq ▸ Table.find?_mem hm₀)
  -- A movement that is linked now meets none that was linked to the same payment before.
  have hnew : ∀ m ∈ s'.movements, ∀ m' ∈ s.movements, some m.id = marked →
      freeMovement s restaurantId m.id = true → m'.matchedPaymentId ≠ some claimId :=
    fun m _ m' hm' hmarked hfree => h.unique ⟨m.id, hmarked.symm, hfree⟩ m' hm'
  intro m hm m' hm' id hid hid'
  rcases hcases m hm with hold | ⟨m₀, hm₀, hmarked, hfree, heq⟩
  · rcases hcases m' hm' with hold' | ⟨m₀, hm₀, hmarked, hfree, heq⟩
    · exact hs m hold m' hold' id hid hid'
    · rw [heq] at hid'
      cases hid'
      exact absurd hid (hnew m' hm' m hold hmarked hfree)
  · rcases hcases m' hm' with hold' | ⟨m₀', hm₀', hmarked', -, heq'⟩
    · rw [heq] at hid
      cases hid
      exact absurd hid' (hnew m hm m' hold' hmarked hfree)
    · exact Table.eq_of_key hm hm' (Option.some.inj (hmarked.trans hmarked'.symm))

/-- The claim of a rejection moves, and nothing else of what a confirmation looks at. -/
theorem rejectClaim_rows (h : (rejectClaim restaurantId claimId reason).run s = .ok moved s') :
    (∃ claim, HasClaim s claimId claim ∧ ∃ detached, ∀ id, s'.payments.find? id =
      if id = claimId then (s.payments.find? id).map (Payment.moved .failed detached)
      else s.payments.find? id) ∧ s'.bills = s.bills ∧ s'.movements = s.movements := by
  unfold rejectClaim at h
  simp only [Tx.withTransaction_ok, Tx.bind_ok] at h
  obtain ⟨claim, _, hlock, hmove⟩ := h
  obtain ⟨hclaim, rfl, hpending, -, rfl⟩ := lockPendingClaim_ok hlock
  obtain ⟨current, hcurrent, ⟨hsame, -⟩ | ⟨-, detached, transitions, shares, rfl⟩⟩ :=
    transitionPayment_ok hmove
  · obtain rfl := Option.some.inj ((payment?_eq_some.mp hcurrent).1.symm.trans hclaim)
    rw [hpending] at hsame
    cases hsame
  exact ⟨⟨claim, ⟨hclaim, hpending⟩, detached,
    Table.find?_update_with (Payment.moved .failed detached) fun _ => rfl⟩, rfl, rfl⟩

/-- What a call has locked is as it was when no other call writes it. -/
theorem BankPhase.Sound.later (hu : u.Sound b)
    (hclaim : ∀ id, u.holdsClaim id = true → b'.db.payments.find? id = b.db.payments.find? id)
    (hbill : ∀ id, u.holdsBill id = true → b'.db.bills.find? id = b.db.bills.find? id)
    (hmovement : ∀ id restaurantId, u.holdsMovement id = true →
      freeMovement b.db restaurantId id = true → freeMovement b'.db restaurantId id = true) :
    u.Sound b' := by
  cases u with
  | confirming c caller stage =>
    have hlocked : ∀ claim, stage ≠ .lockClaim → HasClaim b.db c.claimId claim →
        HasClaim b'.db c.claimId claim := by
      intro claim hstage hhas
      refine ⟨?_, hhas.2⟩
      rw [hclaim, hhas.1]
      cases stage with
      | lockClaim => exact absurd rfl hstage
      | _ => simp [BankPhase.holdsClaim]
    cases stage with
    | lockClaim => exact hu
    | applyBill claim => exact ⟨hu.1, hlocked claim nofun hu.2⟩
    | suggest claim bill =>
      refine ⟨hu.1, hlocked claim nofun hu.2.1, ?_, hu.2.2.2⟩
      rw [hbill _ (by simp [BankPhase.holdsBill])]
      exact hu.2.2.1
    | mark claim bill movementId =>
      refine ⟨hu.1, hlocked claim nofun hu.2.1, ?_, hu.2.2.2⟩
      rw [hbill _ (by simp [BankPhase.holdsBill])]
      exact hu.2.2.1
    | commit claim bill marked =>
      obtain ⟨hbacked, hhas, hhasBill, hfree⟩ := hu
      refine ⟨hbacked, hlocked claim nofun hhas, ⟨?_, hhasBill.2⟩, fun id hid => ?_⟩
      · rw [hbill _ (by simp [BankPhase.holdsBill])]
        exact hhasBill.1
      · exact hmovement id c.restaurantId (by simpa [BankPhase.holdsMovement] using hid) (hfree id hid)
  | _ => trivial

/-- What the others have locked survives a statement, and no movement gets a second payment. -/
theorem Does.keeps (h : Does b us t b' answer) (hs : OneToOne b.db) (ht : t.Sound b)
    (hus : ∀ u ∈ us, u.Sound b ∧ t.Apart u) : OneToOne b'.db ∧ ∀ u ∈ us, u.Sound b' := by
  cases h with
  | quiet hpayments hbills hmovements _ _ =>
    refine ⟨by rw [OneToOne, hmovements]; exact hs, fun u hu => (hus u hu).1.later ?_ ?_ ?_⟩
    · intro id _
      rw [hpayments]
    · intro id _
      rw [hbills]
    · intro id restaurantId _ hfree
      rw [freeMovement, hmovements]
      exact hfree
  | @inserted _ _ movements _ hins =>
    refine ⟨?_, fun u hu => (hus u hu).1.later (fun _ _ => rfl) (fun _ _ => rfl) ?_⟩
    · have hmem : ∀ {m}, m ∈ movements → m.matchedPaymentId ≠ none → m ∈ b.db.movements := by
        intro m hm hne
        rcases (Table.mem_insert? hins).mp hm with hm | rfl
        · exact hm
        · exact absurd rfl hne
      intro m hm m' hm' id hid hid'
      exact hs m (hmem hm (by simp [hid])) m' (hmem hm' (by simp [hid'])) id hid hid'
    · intro id restaurantId _ hfree
      obtain ⟨m, hm, hrest⟩ := freeMovement_iff.mp hfree
      refine freeMovement_iff.mpr ⟨m, ?_, hrest⟩
      rw [← hm]
      refine (Table.find?_insert? hins).trans (if_neg ?_)
      rintro rfl
      exact (Table.insert?_eq_some.mp hins).1 m (Table.find?_mem hm) (Table.find?_key hm)
  | rejected hrun hfree =>
    obtain ⟨⟨claim, hclaim, detached, hpayments⟩, hbills, hmovements⟩ := rejectClaim_rows hrun
    refine ⟨by rw [OneToOne, hmovements]; exact hs, fun u hu => (hus u hu).1.later ?_ ?_ ?_⟩
    · intro id hid
      rw [hpayments, if_neg]
      rintro rfl
      rw [hfree u hu] at hid
      cases hid
    · intro id _
      rw [hbills]
    · intro id restaurantId _ hfree
      rw [freeMovement, hmovements]
      exact hfree
  | @confirmed c caller claim bill marked receipt db hphase hrun =>
    subst hphase
    obtain ⟨claim', bill', hconfirms⟩ := confirmWith_ok hrun
    obtain ⟨-, hhas, -, -⟩ := ht
    obtain rfl := Option.some.inj (hhas.1.symm.trans hconfirms.claimed)
    obtain ⟨detached, hpayments⟩ := hconfirms.moved
    obtain ⟨status, hbills⟩ := hconfirms.credited
    refine ⟨hconfirms.oneToOne hs, fun u hu => (hus u hu).1.later ?_ ?_ ?_⟩
    · intro id hid
      refine (hpayments id).trans (if_neg ?_)
      rintro rfl
      have := (hus u hu).2.claim c.claimId (by simp [BankPhase.holdsClaim])
      rw [hid] at this
      cases this
    · intro id hid
      refine (hbills id).trans (if_neg ?_)
      rintro rfl
      have := (hus u hu).2.bill claim.billId (by simp [BankPhase.holdsBill])
      rw [hid] at this
      cases this
    · intro id restaurantId hid hfree
      obtain ⟨m, hm, hrest⟩ := freeMovement_iff.mp hfree
      refine freeMovement_iff.mpr ⟨m, (hconfirms.linked id).trans ?_, hrest⟩
      rw [hm, Option.map_some, if_neg]
      rintro ⟨hmarked, -⟩
      have := (hus u hu).2.movement id (by simp [BankPhase.holdsMovement, hmarked])
      rw [hid] at this
      cases this

end Frames

/-- What a transaction has locked is as it was, and no two have locked one row. -/
theorem bankRule : bank.Rule (fun _ => True) (fun _ _ _ => True) (fun b => OneToOne b.db)
    BankPhase.Sound BankPhase.Apart where
  symm t u h := ⟨fun id => Protocol.excludes_symm (h.claim id),
    fun id => Protocol.excludes_symm (h.bill id), fun id => Protocol.excludes_symm (h.movement id)⟩
  start b call _ _ := ⟨trivial, fun _ _ => ⟨nofun, nofun, nofun⟩⟩
  goes b us t hb ht hus _ b' t' answer hnext := by
    have hdoes : Does b us t ((t.next b us).committed b) (t.next b us).answer := next_does
    obtain ⟨ht', hclaim, hbill, hmovement⟩ := next_goes ht hnext
    change t.next b us = _ at hnext
    rw [hnext] at hdoes
    obtain ⟨hb', hus'⟩ := hdoes.keeps hb ht hus
    refine ⟨hb', ht', fun u hu => ⟨hus' u hu, ?_, ?_, ?_⟩⟩
    · intro id hid
      rcases hclaim id hid with hheld | hfree
      · exact (hus u hu).2.claim id hheld
      · exact hfree u hu
    · intro id hid
      rcases hbill id hid with hheld | hfree
      · exact (hus u hu).2.bill id hheld
      · exact hfree u hu
    · intro id hid
      rcases hmovement id hid with hheld | hfree
      · exact (hus u hu).2.movement id hheld
      · exact hfree u hu
  ends b us t hb ht hus _ b' answer hnext := by
    have hdoes : Does b us t ((t.next b us).committed b) (t.next b us).answer := next_does
    change t.next b us = _ at hnext
    rw [hnext] at hdoes
    exact hdoes.keeps hb ht hus

/-- What an event credits a bill with. -/
def BankEvent.credit (s : Db) (billId : Uuid) : BankEvent → Int
  | .confirmed _ claimId _ =>
    match s.payments.find? claimId with
    | some claim => if claim.billId = billId then claim.amountVes else 0
    | none => 0
  | _ => 0

/-- What a move of the runs and of staff leaves of claims, bills and movements. -/
structure Reconciles (w : Sessions BankDb BankPhase) (m : Move BankCall) : Prop where
  oneToOne : OneToOne (bank.machine.step w m).1.committed.db
  /-- A movement that backs a payment keeps it. -/
  linked : ∀ id r, w.committed.db.movements.find? id = some r → r.matchedPaymentId ≠ none →
    (bank.machine.step w m).1.committed.db.movements.find? id = some r
  /-- A claim that is confirmed was pending and has succeeded, and the movement that backs it, which a run
  always has, is linked to it by the same move. -/
  confirmed : ∀ via claimId movementId,
    .confirmed via claimId movementId ∈ (bank.machine.step w m).2 →
      (∃ claim, w.committed.db.payments.find? claimId = some claim ∧ claim.status = .pending) ∧
      (∃ claim, (bank.machine.step w m).1.committed.db.payments.find? claimId = some claim ∧
        claim.status = .succeeded) ∧
      (via = .bank → movementId.isSome) ∧
      ∀ id ∈ movementId, (∃ r, w.committed.db.movements.find? id = some r ∧ r.matchedPaymentId = none) ∧
        ∃ r, (bank.machine.step w m).1.committed.db.movements.find? id = some r ∧
          r.matchedPaymentId = some claimId
  /-- A bill is credited with what is confirmed, and with nothing else. -/
  credited : ∀ billId bill, w.committed.db.bills.find? billId = some bill →
    ∃ bill', (bank.machine.step w m).1.committed.db.bills.find? billId = some bill' ∧
      bill'.amountPaidVes = bill.amountPaidVes +
        ((bank.machine.step w m).2.map (BankEvent.credit w.committed.db billId)).sum
  /-- A claim that no event resolves is as it was. -/
  kept : ∀ claimId, (∀ e ∈ (bank.machine.step w m).2, e.resolves ≠ some claimId) →
    (bank.machine.step w m).1.committed.db.payments.find? claimId =
      w.committed.db.payments.find? claimId
  /-- A confirmation of a run that fails changes nothing, and the run goes on with what is left. -/
  skipped : ∀ claimId err, .skipped claimId err ∈ (bank.machine.step w m).2 →
    (bank.machine.step w m).1.committed = w.committed ∧
    ∃ id c run stage, m = .go id ∧ c.claimId = claimId ∧
      w.running.find? id = some ⟨id, .confirming c (.run run) stage⟩ ∧
      (bank.machine.step w m).1.running.find? id = some ⟨id, .loop run⟩
  /-- A run does not end in the middle of a confirmation. -/
  goesOn : ∀ id c run stage, m = .go id →
    w.running.find? id = some ⟨id, .confirming c (.run run) stage⟩ →
      ∃ t, (bank.machine.step w m).1.running.find? id = some ⟨id, t⟩ ∧
        (t = .loop run ∨ t = .flagging c.claimId run ∨ ∃ stage', t = .confirming c (.run run) stage')

section Moves

variable {b b' : BankDb} {us : List BankPhase} {t : BankPhase} {answer : List BankEvent}
  {c : Confirmation} {run : ReconcileRun} {stage : ConfirmStage}

theorem Does.linked (h : Does b us t b' answer) {id : Uuid} {r : BankMovement}
    (hr : b.db.movements.find? id = some r) (hlinked : r.matchedPaymentId ≠ none) :
    b'.db.movements.find? id = some r := by
  cases h with
  | quiet _ _ hmovements _ _ =>
    rw [hmovements]
    exact hr
  | inserted hins =>
    rw [← hr]
    refine (Table.find?_insert? hins).trans (if_neg ?_)
    rintro rfl
    exact (Table.insert?_eq_some.mp hins).1 r (Table.find?_mem hr) (Table.find?_key hr)
  | rejected hrun _ =>
    rw [(rejectClaim_rows hrun).2.2]
    exact hr
  | confirmed _ hrun =>
    obtain ⟨claim, bill, hconfirms⟩ := confirmWith_ok hrun
    refine (hconfirms.linked id).trans ?_
    rw [hr, Option.map_some, if_neg fun h => hlinked h.2.2]

theorem Does.confirmed_rows (h : Does b us t b' answer) (ht : t.Sound b) {via : ConfirmedVia}
    {claimId : Uuid} {movementId : Option Uuid} (hmem : .confirmed via claimId movementId ∈ answer) :
    (∃ claim, b.db.payments.find? claimId = some claim ∧ claim.status = .pending) ∧
    (∃ claim, b'.db.payments.find? claimId = some claim ∧ claim.status = .succeeded) ∧
    (via = .bank → movementId.isSome) ∧
    ∀ id ∈ movementId, (∃ r, b.db.movements.find? id = some r ∧ r.matchedPaymentId = none) ∧
      ∃ r, b'.db.movements.find? id = some r ∧ r.matchedPaymentId = some claimId := by
  cases h with
  | quiet _ _ _ hquiet _ => cases hquiet _ hmem
  | inserted _ => cases hmem
  | rejected _ _ => cases List.mem_singleton.mp hmem
  | @confirmed c caller claim bill marked receipt db hphase hrun =>
    cases List.mem_singleton.mp hmem
    subst hphase
    obtain ⟨hbacked, -, -, hfree⟩ := ht
    obtain ⟨claim', bill', hconfirms⟩ := confirmWith_ok hrun
    refine ⟨⟨claim', hconfirms.claimed, hconfirms.pending⟩, ?_, hbacked, fun id hid => ?_⟩
    · obtain ⟨detached, hpayments⟩ := hconfirms.moved
      refine ⟨claim'.moved .succeeded detached, (hpayments c.claimId).trans ?_, rfl⟩
      rw [if_pos rfl, hconfirms.claimed, Option.map_some]
    · obtain ⟨r, hr, hrestaurant, hnone⟩ := freeMovement_iff.mp (hfree id hid)
      refine ⟨⟨r, hr, hnone⟩, { r with matchedPaymentId := some c.claimId },
        (hconfirms.linked id).trans ?_, rfl⟩
      rw [hr, Option.map_some, if_pos ⟨Option.mem_def.mp hid ▸ rfl, hrestaurant, hnone⟩]

theorem sum_credit_quiet {s : Db} {billId : Uuid} (h : ∀ e ∈ answer, e.resolves = none) :
    (answer.map (BankEvent.credit s billId)).sum = 0 := by
  refine List.sum_eq_zero fun x hx => ?_
  obtain ⟨e, he, rfl⟩ := List.mem_map.mp hx
  have := h e he
  cases e with
  | confirmed via claimId movementId => cases this
  | _ => rfl

theorem Does.credited (h : Does b us t b' answer) {billId : Uuid} {bill : Bill}
    (hbill : b.db.bills.find? billId = some bill) :
    ∃ bill', b'.db.bills.find? billId = some bill' ∧ bill'.amountPaidVes =
      bill.amountPaidVes + (answer.map (BankEvent.credit b.db billId)).sum := by
  cases h with
  | quiet _ hbills _ hquiet _ =>
    refine ⟨bill, by rw [hbills]; exact hbill, ?_⟩
    rw [sum_credit_quiet hquiet, add_zero]
  | inserted _ => exact ⟨bill, hbill, (add_zero _).symm⟩
  | rejected hrun _ =>
    refine ⟨bill, by rw [(rejectClaim_rows hrun).2.1]; exact hbill, ?_⟩
    simp [BankEvent.credit]
  | @confirmed c caller claim bill₀ marked receipt db hphase hrun =>
    obtain ⟨claim', bill', hconfirms⟩ := confirmWith_ok hrun
    obtain ⟨status, hbills⟩ := hconfirms.credited
    have hcredit : BankEvent.credit b.db billId (.confirmed c.via c.claimId marked) =
        if claim'.billId = billId then claim'.amountVes else 0 := by
      simp [BankEvent.credit, hconfirms.claimed]
    rw [List.map_singleton, List.sum_singleton, hcredit]
    by_cases hid : claim'.billId = billId
    · subst hid
      obtain rfl := Option.some.inj (hbill.symm.trans hconfirms.billed)
      refine ⟨bill.applied (bill.amountPaidVes + claim'.amountVes) status,
        (hbills _).trans ?_, by rw [if_pos rfl]; rfl⟩
      rw [if_pos rfl, hbill, Option.map_some]
    · refine ⟨bill, (hbills _).trans ?_, by rw [if_neg hid, add_zero]⟩
      rw [if_neg (Ne.symm hid), hbill]

theorem Does.kept (h : Does b us t b' answer) {claimId : Uuid}
    (hno : ∀ e ∈ answer, e.resolves ≠ some claimId) :
    b'.db.payments.find? claimId = b.db.payments.find? claimId := by
  cases h with
  | quiet hpayments _ _ _ _ => rw [hpayments]
  | inserted _ => rfl
  | rejected hrun _ =>
    obtain ⟨⟨claim, -, detached, hpayments⟩, -, -⟩ := rejectClaim_rows hrun
    refine (hpayments claimId).trans (if_neg ?_)
    rintro rfl
    exact hno _ (List.mem_singleton_self _) rfl
  | confirmed _ hrun =>
    obtain ⟨claim, bill, hconfirms⟩ := confirmWith_ok hrun
    obtain ⟨detached, hpayments⟩ := hconfirms.moved
    refine (hpayments claimId).trans (if_neg ?_)
    rintro rfl
    exact hno _ (List.mem_singleton_self _) rfl

/-- A claim that is resolved was pending and is so no more. -/
theorem Does.resolved (h : Does b us t b' answer) {claimId : Uuid}
    (hmem : claimId ∈ answer.filterMap BankEvent.resolves) :
    (∃ claim, HasClaim b.db claimId claim) ∧
      ∃ claim, b'.db.payments.find? claimId = some claim ∧ claim.status ≠ .pending := by
  obtain ⟨e, he, heq⟩ := List.mem_filterMap.mp hmem
  cases h with
  | quiet _ _ _ hquiet _ => simp [hquiet e he] at heq
  | inserted _ => cases he
  | rejected hrun _ =>
    cases List.mem_singleton.mp he
    cases heq
    obtain ⟨⟨claim, hclaim, detached, hpayments⟩, -, -⟩ := rejectClaim_rows hrun
    refine ⟨⟨claim, hclaim⟩, claim.moved .failed detached, (hpayments _).trans ?_, nofun⟩
    rw [if_pos rfl, hclaim.1, Option.map_some]
  | confirmed _ hrun =>
    cases List.mem_singleton.mp he
    cases heq
    obtain ⟨claim, bill, hconfirms⟩ := confirmWith_ok hrun
    obtain ⟨detached, hpayments⟩ := hconfirms.moved
    refine ⟨⟨claim, hconfirms.claimed, hconfirms.pending⟩, claim.moved .succeeded detached,
      (hpayments _).trans ?_, nofun⟩
    rw [if_pos rfl, hconfirms.claimed, Option.map_some]

/-- One statement resolves one claim at most. -/
theorem Does.resolves_nodup (h : Does b us t b' answer) :
    (answer.filterMap BankEvent.resolves).Nodup := by
  cases h with
  | quiet _ _ _ hquiet _ =>
    rw [List.filterMap_eq_nil_iff.mpr hquiet]
    exact List.nodup_nil
  | inserted _ => exact List.nodup_nil
  | rejected _ _ => exact List.nodup_singleton _
  | confirmed _ _ => exact List.nodup_singleton _

/-- A statement of a confirmation leaves the run in it, or behind it; when it fails, behind it and with
nothing changed. -/
theorem stage_of_run : stage.next b us c (.run run) = .waits ∨
    ∃ b' t answer, stage.next b us c (.run run) = .goes b' t answer ∧
      (t = .loop run ∨ t = .flagging c.claimId run ∨ ∃ stage', t = .confirming c (.run run) stage') ∧
      ∀ claimId err, .skipped claimId err ∈ answer → b' = b ∧ c.claimId = claimId ∧ t = .loop run := by
  have hfails : ∀ err, ∃ b' t answer,
      (Confirmer.run run).fails b c.claimId err = .goes b' t answer ∧
      (t = .loop run ∨ t = .flagging c.claimId run ∨ ∃ stage', t = .confirming c (.run run) stage') ∧
      ∀ claimId err, .skipped claimId err ∈ answer → b' = b ∧ c.claimId = claimId ∧ t = .loop run := by
    intro err
    refine ⟨b, .loop run, _, rfl, .inl rfl, fun claimId err' hmem => ⟨rfl, ?_, rfl⟩⟩
    cases List.mem_singleton.mp hmem
    rfl
  have hgoes : ∀ stage' : ConfirmStage, ∃ b' t answer,
      (.goes b (.confirming c (.run run) stage') [] : Advance BankDb BankPhase BankEvent) =
        .goes b' t answer ∧
      (t = .loop run ∨ t = .flagging c.claimId run ∨ ∃ stage', t = .confirming c (.run run) stage') ∧
      ∀ claimId err, .skipped claimId err ∈ answer → b' = b ∧ c.claimId = claimId ∧ t = .loop run :=
    fun stage' => ⟨b, _, [], rfl, .inr (.inr ⟨stage', rfl⟩), fun _ _ hmem => absurd hmem List.not_mem_nil⟩
  unfold ConfirmStage.next
  split
  · exact .inr (hfails _)
  · split
    · split
      · exact .inl rfl
      · split
        · exact .inr (hgoes _)
        · exact .inr (hfails _)
    · split
      · exact .inl rfl
      · split
        · exact .inr (hgoes _)
        · exact .inr (hfails _)
    · exact .inr (hgoes _)
    · exact .inr (hgoes _)
    · split
      · exact .inl rfl
      · split
        · exact .inr (hgoes _)
        · exact .inr (hfails _)
    · split
      · refine .inr ⟨_, _, _, rfl, .inr (.inl rfl), fun claimId err hmem => ?_⟩
        cases List.mem_singleton.mp hmem
      · exact .inr (hfails _)

/-- Only a confirmation of a run is skipped. -/
theorem skipped_mem {claimId : Uuid} {err : Err} (h : .skipped claimId err ∈ (t.next b us).answer) :
    ∃ c run stage, t = .confirming c (.run run) stage := by
  have hdecided : ∀ {restaurantId : Uuid} {input : RunInput} {claims : List PendingClaim}
      {movements : List MovementShape},
      .skipped claimId err ∉ (decided b restaurantId input claims movements).answer := by
    intro restaurantId input claims movements
    unfold decided
    split <;> simp [Advance.answer]
  cases t with
  | confirming c caller stage =>
    cases caller with
    | run r => exact ⟨c, r, stage, rfl⟩
    | staff =>
      refine absurd h ?_
      change _ ∉ (stage.next b us c .staff).answer
      unfold ConfirmStage.next
      split
      · simp [Confirmer.fails, Advance.answer]
      · split <;> repeat' split
        all_goals simp [Confirmer.fails, Confirmer.succeeds, Advance.answer]
  | begun call =>
    refine absurd h ?_
    cases call <;> unfold BankPhase.next <;> dsimp only <;> repeat' split
    all_goals simp [Advance.answer]
  | inserting connection rows input =>
    refine absurd h ?_
    cases rows <;> unfold BankPhase.next <;> dsimp only
    · simp [Advance.answer]
    · split <;> simp [Advance.answer]
  | reading restaurantId input claims movements =>
    refine absurd h ?_
    cases claims with
    | none =>
      cases movements with
      | none =>
        unfold BankPhase.next
        dsimp only
        split <;> simp [Advance.answer]
      | some movements => exact hdecided
    | some claims =>
      cases movements with
      | none => exact hdecided
      | some movements => exact hdecided
  | noting run decisions =>
    refine absurd h ?_
    cases decisions <;> simp [BankPhase.next, Advance.answer]
  | loop run =>
    refine absurd h ?_
    unfold BankPhase.next
    dsimp only
    split <;> simp [Advance.answer]
  | flagging claimId run =>
    refine absurd h ?_
    unfold BankPhase.next
    dsimp only
    split <;> simp [Advance.answer]

/-- What a move commits and answers is what a statement does, or nothing. -/
theorem move_does {w : Sessions BankDb BankPhase}
    (hw : Protocol.Holds (fun b => OneToOne b.db) BankPhase.Sound BankPhase.Apart w)
    (m : Move BankCall) : ∃ us t, t.Sound w.committed ∧ (∀ u ∈ us, u.Sound w.committed ∧ t.Apart u) ∧
      Does w.committed us t (bank.machine.step w m).1.committed (bank.machine.step w m).2 := by
  rcases Protocol.move_cases (p := bank) w m with
    ⟨r, hfind, -, hcommitted, hanswer⟩ | ⟨hcommitted, hanswer, -⟩
  · rw [hcommitted, hanswer]
    have hmem := Table.find?_mem hfind
    exact ⟨w.others r.id, r.state, hw.session r hmem, hw.others hmem, next_does⟩
  · rw [hcommitted, hanswer]
    exact ⟨[], .begun (.confirmClaim 0 0), trivial, fun _ hu => absurd hu List.not_mem_nil, .silent⟩

theorem reconciles_of_holds {w : Sessions BankDb BankPhase}
    (hw : Protocol.Holds (fun b => OneToOne b.db) BankPhase.Sound BankPhase.Apart w)
    (m : Move BankCall) : Reconciles w m := by
  obtain ⟨us, t, ht, hus, hdoes⟩ := move_does hw m
  refine ⟨(hdoes.keeps hw.committed ht hus).1, fun id r hr => hdoes.linked hr, fun via claimId movementId =>
    hdoes.confirmed_rows ht, fun billId bill hbill => hdoes.credited hbill, fun claimId hno =>
    hdoes.kept hno, fun claimId err hmem => ?_, fun id c run stage hm hfind => ?_⟩
  · obtain ⟨id, ⟨id', t⟩, rfl, hfind, hanswer⟩ := Protocol.answer_mem hmem
    obtain rfl : id' = id := Table.find?_key hfind
    obtain ⟨c, run, stage, rfl⟩ := skipped_mem hanswer
    change _ ∈ (stage.next _ _ c (.run run)).answer at hanswer
    obtain hwaits | ⟨b', t, answer, hgoes, -, hskipped⟩ :
        stage.next w.committed (w.others id') c (.run run) = .waits ∨ _ := stage_of_run
    · rw [hwaits] at hanswer
      cases hanswer
    · rw [hgoes] at hanswer
      obtain ⟨rfl, hclaim, rfl⟩ := hskipped claimId err hanswer
      refine ⟨?_, id', c, run, stage, rfl, hclaim, hfind, Protocol.running_goes hfind hgoes⟩
      rw [Protocol.committed_go hfind]
      change (stage.next _ _ c (.run run)).committed _ = _
      rw [hgoes]
      rfl
  · subst hm
    obtain hwaits | ⟨b', t, answer, hgoes, hphase, -⟩ :
        stage.next w.committed (w.others id) c (.run run) = .waits ∨ _ := stage_of_run
    · refine ⟨_, ?_, .inr (.inr ⟨stage, rfl⟩)⟩
      rw [Protocol.step_waits hfind hwaits]
      exact hfind
    · exact ⟨t, Protocol.running_goes hfind hgoes, hphase⟩

end Moves

/-- However the runs and staff interleave, every movement backs one payment and every payment has one
movement, a claim is confirmed and credited by the move that links its movement, a confirmation that
fails leaves all as it was with the run going on, and no claim is resolved twice. -/
theorem reconciled (b : BankDb) (h : OneToOne b.db) (moves : List (Move BankCall)) :
    bank.machine.Every Reconciles (Sessions.start b) moves ∧
      ((bank.machine.outputs (Sessions.start b) moves).filterMap BankEvent.resolves).Nodup := by
  have hstart : Protocol.Holds (fun b => OneToOne b.db) BankPhase.Sound BankPhase.Apart
      (Sessions.start b) := .start h
  have hallowed : bank.machine.Every (Protocol.Allowed (fun _ => True) fun _ _ _ => True)
      (Sessions.start b) moves := Protocol.every_allowed fun _ _ _ => trivial
  refine ⟨bankRule.every (fun w m hw _ => reconciles_of_holds hw m) hstart hallowed, ?_⟩
  let Resolved (w : Sessions BankDb BankPhase) (claimId : Uuid) : Prop :=
    ∃ claim, w.committed.db.payments.find? claimId = some claim ∧ claim.status ≠ .pending
  refine (Machine.outputs_nodup (D := Resolved) bankRule.step (fun w m hw _ => ?_) (fun w m hw _ => ?_)
    (fun w m hw _ claimId => ?_) hstart hallowed).1
  · obtain ⟨us, t, -, -, hdoes⟩ := move_does hw m
    exact hdoes.resolves_nodup
  · intro claimId hmem
    obtain ⟨us, t, -, -, hdoes⟩ := move_does hw m
    obtain ⟨⟨claim, hclaim, hpending⟩, hresolved⟩ := hdoes.resolved hmem
    refine ⟨fun ⟨claim', hclaim', hne⟩ => ?_, hresolved⟩
    obtain rfl := Option.some.inj (hclaim.symm.trans hclaim')
    exact hne hpending
  · rintro ⟨claim, hclaim, hne⟩
    obtain ⟨us, t, -, -, hdoes⟩ := move_does hw m
    refine ⟨claim, (hdoes.kept fun e he heq => ?_).trans hclaim, hne⟩
    obtain ⟨⟨claim', hclaim', hpending⟩, -⟩ := hdoes.resolved (List.mem_filterMap.mpr ⟨e, he, heq⟩)
    obtain rfl := Option.some.inj (hclaim.symm.trans hclaim')
    exact hne hpending

theorem declared_amount : (0 : Int) < 5000 := by decide

theorem declared_tip : (0 : Int) ≤ 0 := le_rfl

def declaredClaim (id : Uuid) : Payment where
  id := id
  restaurantId := 1
  billId := 10
  amountVes := 5000
  tipVes := 0
  status := .pending
  paymentMethod := .pagoMovil
  provider := none
  providerPaymentId := none
  declaredReference := some "0012345678"
  idempotencyKey := none
  splitParticipantId := none
  createdAt := 0
  amount_pos := declared_amount
  tip_nonneg := declared_tip

/-- A claim of 50.00 on a bill of 50.00, and the movement that pays it. -/
def oneClaim : BankDb where
  db := {
    bills := ⟨[⟨10, 1, .open, .ves, 5000, 0, 0, 0, 0, 5000, 5000, 0, none, none⟩], by simp⟩
    payments := ⟨[declaredClaim 20], by simp⟩
    movements := ⟨[⟨30, 1, none⟩], by simp⟩
    items := ∅, products := ∅, transitions := [], splits := ∅, shares := ∅, adjustments := ∅
    charges := ∅, attempts := [], events := ∅, bankMatches := ∅ }
  connections := ⟨[⟨40, 1, true, true⟩], by simp⟩
  reports := ⟨[⟨30, 40, ⟨"12345678", 5000, none, none, none⟩, 0⟩], by simp⟩
  metadata := ∅

def oneRun : BankCall := .reconcile 1 ⟨true, 0, fun _ _ => none⟩

/-- Two runs overlap. -/
def overlap : List (Move BankCall) :=
  [.start 0 oneRun, .start 1 oneRun] ++ List.replicate 7 (.go 0) ++ List.replicate 7 (.go 1) ++
    List.replicate 7 (.go 0) ++ List.replicate 4 (.go 1)

/-- The claim is confirmed by the first run, and skipped by the second. -/
theorem reconciled_overlap :
    bank.machine.outputs (Sessions.start oneClaim) overlap =
      [.confirmed .bank 20 (some 30), .reconciled 1 { matched := 1, autoConfirmed := 1 },
        .skipped 20 (.api .paymentClaimNotPending "That claim has already been resolved"
          [("status", "SUCCEEDED")]), .reconciled 1 { matched := 1 }] ∧
    bank.machine.Every Reconciles (Sessions.start oneClaim) overlap ∧
    ((bank.machine.outputs (Sessions.start oneClaim) overlap).filterMap BankEvent.resolves).Nodup :=
  ⟨by decide +kernel, reconciled oneClaim (fun _ hm _ hm' _ _ _ =>
    (List.mem_singleton.mp hm).trans (List.mem_singleton.mp hm').symm) overlap⟩

end Splite.Bank
