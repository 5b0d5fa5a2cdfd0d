import Keyzori.Library.Utf16
import Keyzori.Sessions.Cap

/-! Session records as texts, from the registration through the scripts to what TypeScript
reads of their answers. `number` is the integer that `Number` makes of a text, if it is one,
and `sha256` the digest of a text in UTF-8. A binding comes from JavaScript, where a text
may have surrogates without a partner; `JSON.parse` makes them of escapes. -/

namespace Keyzori

open ExpiringStore Store

namespace SessionCodec

variable (number : String → Option Int) (sha256 : String → String)

structure SessionBinding where
  ip : List UInt16
  deviceId : List UInt16
  deriving DecidableEq

/-- The text that is digested: the encoder to UTF-8 replaces surrogates without a partner. -/
def SessionBinding.text (binding : SessionBinding) : String :=
  String.ofList (Utf16.decode (binding.ip ++ 0 :: binding.deviceId))

def hashBinding (binding : SessionBinding) : String := sha256 binding.text

def refreshScript (store : SessionStore) (sessionToken bindingHash : String) (ttlSeconds : Nat) :
    SessionStore × String :=
  match boundSession store sessionToken bindingHash with
  | none => (store, "")
  | some fields =>
      let store := store.expire sessionToken (1000 * ttlSeconds)
      let store := store.sadd fields.licenseId sessionToken
      let store := store.expireSet fields.licenseId (1000 * ttlSeconds)
      (store, fields.licenseId ++ "|" ++ fields.revision)

def removeScript (store : SessionStore) (sessionToken bindingHash : String) : SessionStore × String :=
  match boundSession store sessionToken bindingHash with
  | none => (store, "")
  | some fields =>
      let store := dropEmptyIndex (store.srem fields.licenseId sessionToken) fields.licenseId
      (store.del sessionToken, fields.licenseId ++ "|" ++ fields.revision)

def splitLast : List Char → Option (List Char × List Char)
  | [] => none
  | char :: chars =>
      match splitLast chars with
      | some (before, after) => some (char :: before, after)
      | none => if char = '|' then some ([], chars) else none

def safeRevision (revision : Int) : Prop := 0 ≤ revision ∧ revision ≤ 9007199254740991

instance (revision : Int) : Decidable (safeRevision revision) :=
  inferInstanceAs (Decidable (0 ≤ revision ∧ revision ≤ 9007199254740991))

def resolvedSession (value token : String) : Except Failure ResolvedSession :=
  match splitLast value.toList with
  | some (licenseId, revisionText) =>
      match number (String.ofList revisionText) with
      | some sessionRevision =>
          if licenseId = [] ∨ ¬safeRevision sessionRevision then
            .error (.internal "Redis returned an invalid resolved session.")
          else .ok ⟨String.ofList licenseId, sessionRevision.toNat, token⟩
      | none => .error (.internal "Redis returned an invalid resolved session.")
  | none => .error (.internal "Redis returned an invalid resolved session.")

def answered (token result : String) : Except Failure (Option ResolvedSession) :=
  if result = "" then .ok none else (resolvedSession number result token).map some

def refreshSession (store : SessionStore) (sessionToken : String) (binding : SessionBinding) (ttlSeconds : Nat) :
    SessionStore × Except Failure (Option ResolvedSession) :=
  let (store, result) := refreshScript store sessionToken (hashBinding sha256 binding) ttlSeconds
  (store, answered number sessionToken result)

def removeSession (store : SessionStore) (sessionToken : String) (binding : SessionBinding) :
    SessionStore × Except Failure (Option ResolvedSession) :=
  let (store, result) := removeScript store sessionToken (hashBinding sha256 binding)
  (store, answered number sessionToken result)

/-- `Number` reads the decimal text of a safe integer as that integer. -/
def StandardNumber : Prop :=
  ∀ revision : Nat, safeRevision revision → number (Nat.repr revision) = some (revision : Int)

section Texts

variable {number} {sha256}

theorem splitLast_plain : ∀ {chars : List Char}, '|' ∉ chars → splitLast chars = none
  | [], _ => rfl
  | char :: chars, plain => by
      rw [splitLast, splitLast_plain (List.not_mem_of_not_mem_cons plain)]
      exact if_neg (List.ne_of_not_mem_cons plain).symm

theorem splitLast_separated {after : List Char} (plain : '|' ∉ after) : ∀ before : List Char,
    splitLast (before ++ '|' :: after) = some (before, after)
  | [] => by
      rw [List.nil_append, splitLast, splitLast_plain plain]
      exact if_pos rfl
  | char :: before => by rw [List.cons_append, splitLast, splitLast_separated plain before]

theorem repr_plain (number : Nat) : '|' ∉ (Nat.repr number).toList := by
  intro member
  rw [Nat.toList_repr] at member
  exact absurd (Nat.isDigit_of_mem_toDigits (by decide) (by decide) member) (by decide)

theorem answered_fields (fields : SessionFields) (plain : '|' ∉ fields.revision.toList) (token : String) :
    answered number token (fields.licenseId ++ "|" ++ fields.revision) =
      match number fields.revision with
      | some revision =>
          if fields.licenseId = "" ∨ ¬safeRevision revision then
            .error (.internal "Redis returned an invalid resolved session.")
          else .ok (some ⟨fields.licenseId, revision.toNat, token⟩)
      | none => .error (.internal "Redis returned an invalid resolved session.") := by
  have chars : (fields.licenseId ++ "|" ++ fields.revision).toList =
      fields.licenseId.toList ++ '|' :: fields.revision.toList := by
    simp
  have filled : fields.licenseId ++ "|" ++ fields.revision ≠ "" := by
    intro empty
    rw [← String.toList_inj, chars] at empty
    simp at empty
  have nonempty : fields.licenseId.toList = [] ↔ fields.licenseId = "" := by
    rw [← String.toList_inj]
    rfl
  rw [answered, if_neg filled, resolvedSession, chars, splitLast_separated plain]
  simp only [String.ofList_toList, nonempty]
  cases number fields.revision with
  | none => rfl
  | some revision =>
      dsimp only
      split <;> rfl

theorem text_chars (binding : SessionBinding) : binding.text.toList =
    Utf16.decode binding.ip ++ Char.ofNat 0 :: Utf16.decode binding.deviceId := by
  rw [SessionBinding.text, String.toList_ofList, Utf16.decode_append rfl]
  rfl

end Texts

section Runs

open SessionSystem

/-- A session that was registered under a token with a binding, and whatever happened since. -/
inductive Registered (ttl : Nat) (id : LicenseId) (revision : Nat) (bound : SessionBinding) (token : String) :
    SessionSystem → Prop
  | registered {state : SessionSystem} (maxSessions : Int) : Reachable ttl state → token ∉ state.issued →
      state.revisions id = revision →
      (state.register ttl id (hashBinding sha256 bound) maxSessions token).2 = .registered token →
      Registered ttl id revision bound token
        (state.next ttl (.register id (hashBinding sha256 bound) maxSessions token))
  | step {state : SessionSystem} (event : SessionEvent) : Registered ttl id revision bound token state →
      state.Admissible event → Registered ttl id revision bound token (state.next ttl event)

variable {sha256} {ttl revision : Nat} {id : LicenseId} {bound : SessionBinding} {token : String}
  {state : SessionSystem}

end Runs

section Agreement

def RecordForm (value : String) : Prop :=
  ∃ (id : LicenseId) (revision : Nat) (hash : String), id.text ≠ "" ∧ safeRevision revision ∧
    value = sessionValue id revision hash

def Refused (result : Except Failure (Option ResolvedSession)) : Prop := ∀ session, result ≠ .ok (some session)

variable {number} {sha256} {store : SessionStore} {token : String} {binding : SessionBinding} {ttl : Nat}

variable (number ttl) in
theorem unbound_null (unbound : boundSession store token (hashBinding sha256 binding) = none) :
    refreshSession number sha256 store token binding ttl = (store, .ok none) ∧
      removeSession number sha256 store token binding = (store, .ok none) := by
  simp [refreshSession, removeSession, refreshScript, removeScript, unbound, answered]

theorem answered_record (standard : StandardNumber number) {id : LicenseId} {revision : Nat} (filled : id.text ≠ "")
    (safe : safeRevision revision) (token hash : String) :
    answered number token (id.text ++ "|" ++ Nat.repr revision) = .ok (some ⟨id.text, revision, token⟩) := by
  have read := @answered_fields number ⟨id.text, Nat.repr revision, hash⟩ (repr_plain revision) token
  rw [standard revision safe] at read
  simpa [filled, safe] using read

theorem record_agrees (standard : StandardNumber number)
    (recorded : ∀ value, store.get token = some value → RecordForm value) :
    refreshSession number sha256 store token binding ttl =
        Keyzori.refreshSession store token (hashBinding sha256 binding) ttl ∧
      removeSession number sha256 store token binding =
        Keyzori.removeSession store token (hashBinding sha256 binding) := by
  cases found : boundSession store token (hashBinding sha256 binding) with
  | none =>
      obtain ⟨refreshed, removed⟩ := unbound_null number ttl found
      rw [refreshed, removed]
      simp [Keyzori.refreshSession, Keyzori.removeSession, found]
  | some fields =>
      obtain ⟨value, stored, cut, -⟩ := boundSession_some.mp found
      obtain ⟨id, revision, hash, filled, safe, rfl⟩ := recorded value stored
      rw [sessionFields_sessionValue] at cut
      cases cut
      have answer := answered_record standard filled safe token ""
      simp [refreshSession, removeSession, refreshScript, removeScript, Keyzori.refreshSession,
        Keyzori.removeSession, Keyzori.resolvedSession, found, answer, Except.map]

def sampleDigest (text : String) : String :=
  if text = "192.0.2.1\x00pc" then "cd31c915e05e44f5a9e6f5c418783850d6bf722331894e6b1dd72d7a98f6c701"
  else if text = "192.0.2.1\x00\ufffd" then "1ba8ec826fae9c825949443e4e2deaa5ba3541f093078ab139fd0badf0249231"
  else "?" ++ text

end Agreement

end SessionCodec

end Keyzori
