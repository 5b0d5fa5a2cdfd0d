import Mathlib.Algebra.GroupWithZero.Nat
import Mathlib.Data.List.Basic

namespace Keyzori

/-- Milliseconds since the epoch, the precision of every timestamp column. -/
abbrev Instant := Int

def maxLicenseLimit : Int := 2147483647

/-- A number of a request body. Validators only ask whether it is an integer. -/
inductive Number
  | integer (value : Int)
  | other
  deriving DecidableEq, Repr

/-- White space and line terminators of ECMAScript's `String.prototype.trim`. -/
def isWhiteSpace (char : Char) : Bool :=
  let point := char.toNat
  (9 ≤ point && point ≤ 13) || point == 0x20 || point == 0xA0 || point == 0x1680 ||
    (0x2000 ≤ point && point ≤ 0x200A) || point == 0x2028 || point == 0x2029 ||
    point == 0x202F || point == 0x205F || point == 0x3000 || point == 0xFEFF

@[irreducible] def trim (value : String) : String :=
  String.ofList (((value.toList.dropWhile isWhiteSpace).reverse.dropWhile isWhiteSpace).reverse)

/-- The `length` of a string counts UTF-16 code units. -/
def length (value : String) : Nat :=
  (value.toList.map fun char => if char.toNat < 0x10000 then 1 else 2).sum

inductive ApiErrorCode
  | invalidRequest
  | rateLimited
  | licenseInvalid
  | licenseRevoked
  | licenseExpired
  | ipNotAllowed
  | deviceNotAllowed
  | sessionInvalidOrExpired
  | concurrentSessionLimit
  | meterNotFound
  | meterArchived
  | meterExhausted
  | usageEventConflict
  | ipRegistrationLimit
  | deviceRegistrationLimit
  | internalError
  deriving DecidableEq, Repr

structure DomainError where
  message : String
  statusCode : Nat := 400
  code : ApiErrorCode := .invalidRequest
  deriving DecidableEq, Repr

def notFoundError (resource : String) (code : ApiErrorCode := .invalidRequest) : DomainError :=
  ⟨s!"{resource} not found", 404, code⟩

def conflictError (message : String) (code : ApiErrorCode := .invalidRequest) : DomainError :=
  ⟨message, 409, code⟩

/-- What a call can throw: a domain error, an error of another class with its
status, or a failure of the database, of Redis or of the network. -/
inductive Failure
  | domain (error : DomainError)
  | integration (message code : String) (statusCode : Nat)
  | internal (message : String)
  deriving DecidableEq, Repr

/-- A license id comes from `crypto.randomUUID`, whose texts have no `|`. -/
structure LicenseId where
  text : String
  plain : '|' ∉ text.toList
  deriving DecidableEq

inductive LicenseType
  | lifetime
  | subscription
  | metered
  | trial
  deriving DecidableEq, Repr

section Results

variable {ε α β : Type}

theorem bind_ok {first : Except ε α} {rest : α → Except ε β} {result : β} :
    (first >>= rest) = .ok result ↔ ∃ middle, first = .ok middle ∧ rest middle = .ok result := by
  cases first with
  | ok middle =>
      constructor
      · intro ran
        exact ⟨middle, rfl, ran⟩
      · rintro ⟨_, same, ran⟩
        cases same
        exact ran
  | error error =>
      constructor
      · intro ran
        cases ran
      · rintro ⟨_, same, _⟩
        cases same

end Results

def validateInteger (value : Number) (label : String) (minimum : Int := 0) :
    Except DomainError Int :=
  match value with
  | .integer value =>
      if value < minimum ∨ value > maxLicenseLimit then
        .error ⟨s!"{label} must be an integer from {minimum} to {maxLicenseLimit}", 400,
          .invalidRequest⟩
      else .ok value
  | .other =>
      .error ⟨s!"{label} must be an integer from {minimum} to {maxLicenseLimit}", 400,
        .invalidRequest⟩

theorem validateInteger_bounds {value : Number} {label : String} {minimum accepted : Int}
    (valid : validateInteger value label minimum = .ok accepted) :
    value = .integer accepted ∧ minimum ≤ accepted ∧ accepted ≤ maxLicenseLimit := by
  cases value with
  | integer value =>
      simp only [validateInteger] at valid
      split at valid
      · cases valid
      · cases valid
        exact ⟨rfl, by omega, by omega⟩
  | other => cases valid

def boundedText (value : String) (limit : Nat) (message : String) : Except DomainError String :=
  let text := trim value
  if text = "" ∨ length text > limit then .error ⟨message, 400, .invalidRequest⟩ else .ok text

def meterName (value : String) : Except DomainError String :=
  boundedText value 128 "Meter name must contain between 1 and 128 characters"

def deviceId (value : String) : Except DomainError String :=
  boundedText value 128 "deviceId must contain between 1 and 128 characters"

def reason (value : String) : Except DomainError String :=
  boundedText value 500 "reason must contain between 1 and 500 characters"

end Keyzori
