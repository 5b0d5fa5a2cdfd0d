import Keyzori.Domain.Values
import Keyzori.Library.ExpiringStore

/-! The four scripts of the session repository. Keys are session tokens, values
the raw texts the scripts take apart, and the index of a license is the set
under its id. The key prefixes `license_session:` and `license_sessions:` keep
the two apart, which the store does by its type. -/

namespace Keyzori

open ExpiringStore

/-- Its clock counts milliseconds. -/
abbrev SessionStore := Store String String String

/-- The fields of a stored value, as the scripts cut them out. -/
structure SessionFields where
  licenseId : String
  revision : String
  binding : String
  deriving DecidableEq, Repr

def sessionFields (value : String) : Option SessionFields :=
  let chars := value.toList
  match chars.dropWhile (fun char => char ≠ '|') with
  | [] => none
  | _ :: rest =>
      match rest.dropWhile (fun char => char ≠ '|') with
      | [] => none
      | _ :: binding => some
          { licenseId := String.ofList (chars.takeWhile fun char => char ≠ '|')
            revision := String.ofList (rest.takeWhile fun char => char ≠ '|')
            binding := String.ofList binding }

/-- `tonumber` and `Number` on a text of decimal digits, all that is ever stored. -/
def tonumber (text : String) : Option Nat :=
  if text.toList ≠ [] ∧ text.toList.all Char.isDigit then some (Nat.ofDigitChars 10 text.toList 0)
  else none

def sessionValue (licenseId : LicenseId) (sessionRevision : Nat) (bindingHash : String) : String :=
  licenseId.text ++ "|" ++ Nat.repr sessionRevision ++ "|" ++ bindingHash

inductive SessionRegistrationResult
  | registered (token : String)
  | limitReached
  deriving DecidableEq, Repr

structure ResolvedSession where
  licenseId : String
  sessionRevision : Nat
  token : String
  deriving DecidableEq, Repr

/-- Whether the registration script drops a member with this value. -/
def staleMember (revision : String) (value : Option String) : Bool :=
  (value.bind sessionFields).map SessionFields.revision ≠ some revision

def registerSession (store : SessionStore) (licenseId : LicenseId) (sessionRevision : Nat)
    (bindingHash : String) (ttlSeconds : Nat) (maxSessions : Int) (sessionToken : String) :
    SessionStore × SessionRegistrationResult :=
  let (store, _) := store.sweep licenseId.text fun value =>
    (staleMember (Nat.repr sessionRevision) value, staleMember (Nat.repr sessionRevision) value)
  if maxSessions > 0 ∧ (store.scard licenseId.text : Int) ≥ maxSessions then (store, .limitReached)
  else
    let store := store.setEx sessionToken (sessionValue licenseId sessionRevision bindingHash)
      (1000 * ttlSeconds)
    let store := store.sadd licenseId.text sessionToken
    (store.expireSet licenseId.text (1000 * ttlSeconds), .registered sessionToken)

def boundSession (store : SessionStore) (sessionToken bindingHash : String) :
    Option SessionFields := do
  let value ← store.get sessionToken
  let fields ← sessionFields value
  if fields.binding ≠ bindingHash then none else some fields

def resolvedSession (fields : SessionFields) (token : String) : Except Failure ResolvedSession :=
  match tonumber fields.revision with
  | some revision => .ok ⟨fields.licenseId, revision, token⟩
  | none => .error (.internal "Redis returned an invalid resolved session.")

def refreshSession (store : SessionStore) (sessionToken bindingHash : String) (ttlSeconds : Nat) :
    SessionStore × Except Failure (Option ResolvedSession) :=
  match boundSession store sessionToken bindingHash with
  | none => (store, .ok none)
  | some fields =>
      let store := store.expire sessionToken (1000 * ttlSeconds)
      let store := store.sadd fields.licenseId sessionToken
      let store := store.expireSet fields.licenseId (1000 * ttlSeconds)
      (store, (resolvedSession fields sessionToken).map some)

def dropEmptyIndex (store : SessionStore) (licenseId : String) : SessionStore :=
  if store.scard licenseId = 0 then store.delSet licenseId else store

def removeSession (store : SessionStore) (sessionToken bindingHash : String) :
    SessionStore × Except Failure (Option ResolvedSession) :=
  match boundSession store sessionToken bindingHash with
  | none => (store, .ok none)
  | some fields =>
      let store := dropEmptyIndex (store.srem fields.licenseId sessionToken) fields.licenseId
      (store.del sessionToken, (resolvedSession fields sessionToken).map some)

/-- The loop of the script that removes all sessions. A member without a value is
dropped in either case; only where no minimum is given is its key deleted, too. -/
def removedMember (preserveFromRevision : Option Nat) (value : Option String) : Bool × Bool :=
  match preserveFromRevision, value with
  | none, _ => (true, true)
  | some _, none => (false, true)
  | some minimum, some value =>
      let remove := match (sessionFields value).bind fun fields => tonumber fields.revision with
        | some revision => decide (revision < minimum)
        | none => true
      (remove, remove)

def removeAllSessions (store : SessionStore) (licenseId : LicenseId)
    (preserveFromRevision : Option Nat) : SessionStore × Nat :=
  let (store, removed) := store.sweep licenseId.text (removedMember preserveFromRevision)
  (dropEmptyIndex store licenseId.text, removed)

@[simp] theorem tonumber_repr (number : Nat) : tonumber (Nat.repr number) = some number := by
  have digits : (Nat.toDigits 10 number).all Char.isDigit = true := by
    rw [List.all_eq_true]
    exact fun char member => Nat.isDigit_of_mem_toDigits (by decide) (by decide) member
  rw [tonumber, Nat.toList_repr, if_pos ⟨Nat.toDigits_ne_nil, digits⟩]
  exact congrArg some (Nat.ofDigitChars_toDigits (by decide) (by decide))

theorem repr_inj {first second : Nat} : Nat.repr first = Nat.repr second ↔ first = second := by
  constructor
  · intro same
    have numbers := congrArg tonumber same
    simpa using numbers
  · rintro rfl
    rfl

theorem span_separator {before : List Char} (after : List Char) (plain : '|' ∉ before) :
    (before ++ '|' :: after).dropWhile (fun char => char ≠ '|') = '|' :: after ∧
      (before ++ '|' :: after).takeWhile (fun char => char ≠ '|') = before := by
  have skipped : ∀ char ∈ before, (fun char : Char => decide (char ≠ '|')) char = true := by
    intro char member
    have other : char ≠ '|' := fun same => plain (same ▸ member)
    simp [other]
  constructor
  · rw [List.dropWhile_append_of_pos skipped]
    simp
  · rw [List.takeWhile_append_of_pos skipped]
    simp

@[simp] theorem sessionFields_sessionValue (licenseId : LicenseId) (sessionRevision : Nat)
    (bindingHash : String) :
    sessionFields (sessionValue licenseId sessionRevision bindingHash) =
      some ⟨licenseId.text, Nat.repr sessionRevision, bindingHash⟩ := by
  have digits : '|' ∉ (Nat.repr sessionRevision).toList := by
    intro member
    rw [Nat.toList_repr] at member
    have digit := Nat.isDigit_of_mem_toDigits (by decide) (by decide) member
    exact absurd digit (by decide)
  have chars : (sessionValue licenseId sessionRevision bindingHash).toList =
      licenseId.text.toList ++ '|' :: ((Nat.repr sessionRevision).toList ++ '|' ::
        bindingHash.toList) := by
    simp [sessionValue]
  obtain ⟨firstDrop, firstTake⟩ := span_separator
    ((Nat.repr sessionRevision).toList ++ '|' :: bindingHash.toList) licenseId.plain
  obtain ⟨secondDrop, secondTake⟩ := span_separator bindingHash.toList digits
  simp only [sessionFields, chars, firstDrop, firstTake, secondDrop, secondTake,
    String.ofList_toList]

end Keyzori
