import Keyzori.Meters.Balances
import Mathlib.Algebra.BigOperators.Group.List.Basic

namespace Keyzori

open LockedTransactions MeterRegion MeterTable

namespace MeterRegion

end MeterRegion

structure Debit where
  request : UsageRequest
  remaining : Int
  deriving DecidableEq

def debitOf (id : LicenseId) : MeterRequest × Outcome Failure MeterResponse → Option Debit
  | (.consume other input _, .committed (.consumption (.consumed meter _))) =>
      if other = id then
        match validateUsageInput input with
        | .ok request => some ⟨request, meter.balance⟩
        | .error _ => none
      else none
  | _ => none

def debits (id : LicenseId) (trace : List (MeterRequest × Outcome Failure MeterResponse)) :
    List Debit :=
  trace.filterMap (debitOf id)

section Service

variable {hashUsageEventId : String → String}

end Service

end Keyzori
