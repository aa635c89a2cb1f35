import Splite.Ledger.Bills

/-!
# Settlement by a provider (`services/webhooks.js`)

`settleFromWebhook_effect`: a delivery settles or fails a payment of the provider that sent it, once,
or moves nothing.
-/

namespace Splite

/-- `PROVIDERS`: the providers that deliveries are accepted from. -/
def PROVIDERS : List Provider := [.splite]

/-- What a delivery says, once `handleDelivery` has made sure that it names a payment. -/
structure ParsedDelivery where
  providerEventId : Option String
  paymentId : Uuid
  restaurantId : Uuid
  /-- The amount in the body, which nothing reads. -/
  amountVes : Option String
  succeeded : Bool
  failed : Bool
  deriving DecidableEq, Repr

/-- `outcome.kind`, with what goes with it. -/
inductive DeliveryOutcome where
  | providerMismatch
  | duplicate (status : Option PaymentStatus)
  | failed
  | ignored
  | settled (settlement : SettlementView)

def DeliveryOutcome.kind : DeliveryOutcome → String
  | .providerMismatch => "PROVIDER_MISMATCH"
  | .duplicate _ => "DUPLICATE"
  | .failed => "FAILED"
  | .ignored => "IGNORED"
  | .settled _ => "SETTLED"

def Provider.text : Provider → String
  | .splite => "SPLITE"
  | .mercantil => "MERCANTIL"

/-- What a delivery of the payment's own provider does to it. -/
def actOnDelivery (providerCode : Provider) (parsed : ParsedDelivery) (payment : Payment) :
    Tx Err Db DeliveryOutcome := do
  if payment.status ≠ .pending then return .duplicate (some payment.status)
  else if parsed.failed then
    let _ ← transitionPayment parsed.restaurantId parsed.paymentId .failed
      (some ("Reported failed by " ++ providerCode.text))
    return .failed
  else if !parsed.succeeded then return .ignored
  else
    let applied ← applyToBill parsed.restaurantId payment.billId payment.amountVes
    let _ ← transitionPayment parsed.restaurantId parsed.paymentId .succeeded
      (some ("Confirmed by " ++ providerCode.text))
    return .settled (settlementView applied)

/-- `INSERT INTO webhook_events_processed …`, of a delivery that has an event id. -/
def claimEvent (providerCode : Provider) (parsed : ParsedDelivery) (outcome : DeliveryOutcome) :
    Tx Err Db Unit := do
  let s ← get
  match parsed.providerEventId with
  | some providerEventId =>
    let events ← Tx.orThrow
      (s.events.insert? ⟨providerCode, providerEventId, parsed.paymentId, outcome.kind⟩)
      (.uniqueViolation "webhook_events_processed_pkey")
    set { s with events }
  | none => pure ()

/-- The transaction of `settleFromWebhook`. -/
def settleDelivery (providerCode : Provider) (parsed : ParsedDelivery) :
    Tx Err Db DeliveryOutcome := Tx.withTransaction do
  let s ← get
  let payment ← Tx.orThrow (s.payment? parsed.restaurantId parsed.paymentId)
    (.api .webhookPaymentUnresolved "No such payment yet" [])
  if payment.provider ≠ some providerCode then return .providerMismatch
  else
    let result ← actOnDelivery providerCode parsed payment
    claimEvent providerCode parsed result
    return result

/-- `settleFromWebhook({ providerCode, parsed })`, for a provider that has an adapter. -/
def settleFromWebhook (providerCode : Provider) (parsed : ParsedDelivery) :
    Tx Err Db DeliveryOutcome := do
  Tx.require (providerCode ∈ PROVIDERS)
    (.api .webhookProviderUnknown "No adapter for that provider"
      [("provider", providerCode.text)])
  Tx.rescue (settleDelivery providerCode parsed) fun err =>
    if err = .uniqueViolation "webhook_events_processed_pkey" then return .duplicate none
    else throw err

/-! ## What a delivery does to accounts -/

section Effects

variable {s s' : Db}

theorem claimEvent_ok {providerCode : Provider} {parsed : ParsedDelivery}
    {outcome : DeliveryOutcome} {u : Unit}
    (h : (claimEvent providerCode parsed outcome).run s = .ok u s') :
    ∃ events, s' = { s with events } := by
  unfold claimEvent at h
  rw [Tx.bind_of_ok Tx.run_get] at h
  split at h
  · simp only [Tx.bind_ok, Tx.orThrow_ok, Tx.run_set] at h
    obtain ⟨events, _, ⟨-, rfl⟩, ⟨-, rfl⟩⟩ := h
    exact ⟨events, rfl⟩
  · exact ⟨s.events, (Tx.pure_ok.mp h).2⟩

theorem actOnDelivery_effect {providerCode : Provider} {parsed : ParsedDelivery} {p : Payment}
    {r : DeliveryOutcome} (hp : s.payments.find? parsed.paymentId = some p) (hnot : ¬p.InFlight)
    (h : (actOnDelivery providerCode parsed p).run s = .ok r s') : Effect none s s' := by
  unfold actOnDelivery at h
  split at h
  · obtain ⟨-, rfl⟩ := Tx.pure_ok.mp h
    exact .refl _ _
  rename_i hpending
  split at h
  · simp only [Tx.bind_ok, Tx.pure_ok] at h
    obtain ⟨_, _, hmove, -, rfl⟩ := h
    exact move_effect (.inr (.inr rfl)) hp (.inl hnot) hmove
  split at h
  · obtain ⟨-, rfl⟩ := Tx.pure_ok.mp h
    exact .refl _ _
  · simp only [Tx.bind_ok, Tx.pure_ok] at h
    obtain ⟨applied, s₁, happly, _, _, hmove, -, rfl⟩ := h
    exact settle_effect hp (.inl hnot) (.inl (by simpa using hpending)) happly hmove

theorem settleDelivery_effect {providerCode : Provider} {parsed : ParsedDelivery}
    {r : DeliveryOutcome} (hprov : providerCode ∈ PROVIDERS)
    (h : (settleDelivery providerCode parsed).run s = .ok r s') : Effect none s s' := by
  unfold settleDelivery at h
  simp only [Tx.withTransaction_ok, Tx.bind_ok, Tx.run_get, Tx.orThrow_ok] at h
  obtain ⟨_, _, ⟨rfl, rfl⟩, payment, _, ⟨hpay, rfl⟩, h⟩ := h
  split at h
  · obtain ⟨-, rfl⟩ := Tx.pure_ok.mp h
    exact .refl _ _
  rename_i hown
  simp only [Tx.bind_ok, Tx.pure_ok] at h
  obtain ⟨result, s₁, hact, _, s₂, hclaim, -, rfl⟩ := h
  obtain ⟨events, rfl⟩ := claimEvent_ok hclaim
  have hnot : ¬payment.InFlight := fun hfl => by
    -- A charge of the bank is not a payment of any provider that has an adapter.
    have hsplite : providerCode = .splite := by simpa [PROVIDERS] using hprov
    rw [not_not, hfl.2.2, hsplite] at hown
    cases hown
  have heff := actOnDelivery_effect (payment?_eq_some.mp hpay).1 hnot hact
  exact heff.trans (.of_frame rfl rfl rfl)

theorem settleFromWebhook_effect {providerCode : Provider} {parsed : ParsedDelivery}
    {r : DeliveryOutcome} (h : (settleFromWebhook providerCode parsed).run s = .ok r s') :
    Effect none s s' := by
  unfold settleFromWebhook at h
  simp only [Tx.bind_ok, Tx.require_ok] at h
  obtain ⟨_, _, ⟨hprov, rfl⟩, h⟩ := h
  rw [Tx.rescue_ok] at h
  rcases h with h | ⟨err, s₁, hfail, h⟩
  · exact settleDelivery_effect hprov h
  · obtain ⟨_, -, rfl⟩ := Tx.withTransaction_error.mp hfail
    split at h
    · obtain ⟨-, rfl⟩ := Tx.pure_ok.mp h
      exact .refl _ _
    · simp at h

theorem settleFromWebhook_atomic (providerCode : Provider) (parsed : ParsedDelivery) :
    Tx.Atomic (settleFromWebhook providerCode parsed) := by
  refine Tx.atomic_require_bind (Tx.atomic_rescue (Tx.atomic_withTransaction _ fun _ _ => rfl) ?_)
  intro err
  split
  · exact Tx.atomic_pure _
  · exact Tx.atomic_throw _

end Effects

end Splite
