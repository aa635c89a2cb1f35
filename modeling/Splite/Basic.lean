/-!
# Ids, instants and errors

What a call of a service throws (`src/errors.js`, and the error codes of Postgres that the
services look at): an `ApiError` with its code, text and details, a plain `Error`, or a constraint
violation that the database answers a statement with.
-/

namespace Splite

/-- A UUID, of which only equality matters. -/
abbrev Uuid := Nat

/-- Milliseconds. -/
abbrev Time := Nat

/-- `lower(email)`; the addresses that are accepted are ASCII. -/
def lowered (email : String) : List Char := email.toList.map Char.toLower

/-- The codes of `src/errors.js` that the modelled services throw. -/
inductive Code where
  | invalidAmount
  | invalidMonetaryValue
  | fxUnavailable
  | invalidCredentials
  | notFound
  | billNotFound
  | billNotOpen
  | billNotItemised
  | billItemNotFound
  | billHasPayments
  | openBillExists
  | productNotFound
  | productInactive
  | menuCurrencyMismatch
  | productTaxConflict
  | totalBelowAmountPaid
  | paymentNotFound
  | paymentExceedsBalance
  | paymentStateInvalid
  | paymentReferenceAlreadyUsed
  | paymentClaimNotFound
  | paymentClaimNotPending
  | paymentProviderMisconfigured
  | paymentResolutionUnavailable
  | bankMovementAlreadyUsed
  | webhookPaymentUnresolved
  | webhookProviderUnknown
  | splitParticipantsInvalid
  | splitNotItemised
  | splitClaimUnknown
  | splitClaimsIncomplete
  | splitAmountMismatch
  | splitNothingOutstanding
  | splitNotFound
  | splitNotActive
  | splitStale
  | splitHasPayments
  | splitAlreadyExists
  | splitShareNotFound
  | splitShareOverpaid
  | restaurantNotFound
  | fiscalRifMissing
  | fiscalNothingToDeclare
  | fiscalAlreadyRequested
  | fiscalRequestNotFound
  | fiscalDraftMissing
  | fiscalSeriesMissing
  | fiscalRangeExhausted
  | fiscalSeriesLocked
  | idempotencyKeyReused
  | idempotencyInFlight
  | validationFailed
  | subscriptionChargeNotFound
  | subscriptionChargeClosed
  | subscriptionChargeExists
  | subscriptionPriceMissing
  | subscriptionNoticeNotFound
  | subscriptionNoticeClosed
  | staffNotFound
  | staffSelfForbidden
  | staffOutranked
  | staffRoleTooHigh
  | staffLastOwner
  | staffEmailTaken
  | staffInvitationNotFound
  | invitationInvalid
  | invitationEmailInUse
  | mfaCodeInvalid
  | mfaNotEnrolled
  | mfaAlreadyEnabled
  | mfaNotEnabled
  | passwordUnchanged
  | operatorNotFound
  | operatorSetupInvalid
  | authTokenInvalid
  | emailAlreadyRegistered
  | rifAlreadyRegistered
  | onboardingTokenInvalid
  | fiscalRifMalformed
  | fiscalRifLocked
  | fiscalRifTaken
  | planUpgradeRequired
  | planDowngradeBlocked
  | paymentProviderUnknown
  | paymentCredentialsKeyMissing
  | paymentCredentialsUnreadable
  | rateLimited
  | rateLimiterUnavailable
  | categoryNotFound
  | categoryNameTaken
  | productNameTaken
  | bankInboundUnauthorized
  deriving DecidableEq, Repr

/-- What a statement or a service call fails with. -/
inductive Err where
  /-- `new ApiError(code, message, details)`. -/
  | api (code : Code) (message : String) (details : List (String × String))
  /-- `new Error(message)`, and anything else that is not an `ApiError`. -/
  | error (message : String)
  /-- Postgres `23505`, with the name of the unique index. -/
  | uniqueViolation (constraint : String)
  /-- Postgres `23514`, with the name of the check or the trigger. -/
  | checkViolation (constraint : String)
  /-- Postgres `23503`, with the name of the foreign key. -/
  | foreignKeyViolation (constraint : String)
  deriving DecidableEq, Repr

/-- `err.code` of an `ApiError`. -/
def Err.apiCode : Err → Option Code
  | .api code _ _ => some code
  | _ => none

end Splite
