import Keyzori.Activity.Events
import Keyzori.Domain.Scrubbing
import Keyzori.Library.HexDigits

namespace Keyzori

def spelled : List Char → List Char → Option (List Char)
  | [], chars => some chars
  | letter :: letters, char :: chars => if char.toLower = letter then spelled letters chars else none
  | _ :: _, [] => none

def startsWith (word : String) (chars : List Char) : Bool := (spelled word.toList chars).isSome

def isDot (char : Char) : Bool :=
  char.toNat < 0x10000 && char != '\n' && char != '\r' && char.toNat != 0x2028 && char.toNat != 0x2029

def startsDotKey (chars : List Char) : Bool :=
  startsWith "key" chars ||
    match chars with
    | char :: rest => isDot char && startsWith "key" rest
    | [] => false

def startsSensitiveKey (chars : List Char) : Bool :=
  (spelled "license".toList chars).any startsDotKey || (spelled "api".toList chars).any startsDotKey ||
    ["secret", "token", "authorization", "password"].any fun word => startsWith word chars

def sensitiveDetailKey (key : String) : Bool := key.toList.tails.any startsSensitiveKey

def startsSensitiveValue (chars : List Char) : Bool :=
  (["lic_", "sk_", "whsec_"].any fun word => startsWith word chars) ||
    (spelled "bearer".toList chars).any fun rest => (rest.head?).any isWhiteSpace

/-- Whether some text begins at the front or behind a character that is no letter and no digit. -/
def beginsWord (starts : List Char → Bool) : Bool → List Char → Bool
  | _, [] => false
  | boundary, char :: chars =>
      (boundary && starts (char :: chars)) || beginsWord starts (!char.isAlphanum) chars

def sensitiveDetailValue (value : String) : Bool := beginsWord startsSensitiveValue true value.toList

def fits : List (Char → Bool) → List Char → Bool
  | [], [] => true
  | part :: parts, char :: chars => part char && fits parts chars
  | _, _ => false

def uuidDetailValue (value : String) : Bool :=
  let hex (count : Nat) := List.replicate count fun char => (HexDigits.hexValue char).isSome
  fits (hex 8 ++ [(· == '-')] ++ hex 4 ++ [(· == '-'), fun char => '1' ≤ char && char ≤ '8'] ++ hex 3 ++
    [(· == '-'), fun char => char == '8' || char == '9' || char.toLower == 'a' || char.toLower == 'b'] ++
    hex 3 ++ [(· == '-')] ++ hex 12) value.toList

def redactedText (value : String) : String :=
  if sensitiveDetailValue value || uuidDetailValue value then "[REDACTED]" else value

def sanitizeValue (value : Json) : Json := value.scrub sensitiveDetailKey redactedText

def sanitizeDetails (details : JsonObject) : JsonObject :=
  Json.scrubFields sensitiveDetailKey redactedText details

def sanitizeReason : Option String → Option String
  | none => none
  | some reason => if reason = "" then some reason else some (redactedText reason)

/-- The first units of a text. Half of a pair is read as U+FFFD. -/
def slice (units : Nat) : List Char → List Char
  | [] => []
  | char :: chars =>
      if units = 0 then []
      else if char.toNat < 0x10000 then char :: slice (units - 1) chars
      else if units = 1 then ['\uFFFD']
      else char :: slice (units - 2) chars

def NewActivityEvent.sanitized (input : NewActivityEvent) : NewActivityEvent :=
  { input with
    reason := sanitizeReason input.reason
    keyPrefix := input.keyPrefix.map fun text => String.ofList (slice 16 text.toList)
    details := some (sanitizeDetails (input.details.getD [])) }

structure ActivityService (σ ε : Type) where
  repository : σ
  handed : List NewActivityEvent
  reports : List (String × ε)

section Service

variable {σ ε : Type} (record : NewActivityEvent → σ → Except ε ActivityEvent × σ)

def ActivityService.capture (service : ActivityService σ ε) (input : NewActivityEvent) :
    Option ActivityEvent × ActivityService σ ε :=
  let sanitized := input.sanitized
  match record sanitized service.repository with
  | (.ok event, repository) => (some event, ⟨repository, service.handed ++ [sanitized], service.reports⟩)
  | (.error error, repository) =>
      (none, ⟨repository, service.handed ++ [sanitized],
        service.reports ++ [("Activity persistence failed", error)]⟩)

def ActivityService.captureAll (service : ActivityService σ ε) (inputs : List NewActivityEvent) :
    ActivityService σ ε :=
  inputs.foldl (fun service input => (service.capture record input).2) service

theorem handed_capture (service : ActivityService σ ε) (input : NewActivityEvent) :
    (service.capture record input).2.handed = service.handed ++ [input.sanitized] := by
  simp only [ActivityService.capture]
  split <;> rfl

theorem handed_captureAll (service : ActivityService σ ε) (inputs : List NewActivityEvent) :
    (service.captureAll record inputs).handed = service.handed ++ inputs.map NewActivityEvent.sanitized := by
  induction inputs generalizing service with
  | nil => exact (List.append_nil _).symm
  | cons input inputs rest =>
      change ((service.capture record input).2.captureAll record inputs).handed = _
      rw [rest, handed_capture, List.map_cons, List.append_assoc, List.singleton_append]

end Service

/-- No key or string of a value, at any depth, is one that is kept out of details. -/
def CleanDetails (details : Json) : Prop :=
  ∀ part ∈ details.parts, (∀ key ∈ part.keys, sensitiveDetailKey key = false) ∧
    ∀ value, part = .string value → sensitiveDetailValue value = false ∧ uuidDetailValue value = false

theorem redactedText_clean (value : String) :
    sensitiveDetailValue (redactedText value) = false ∧ uuidDetailValue (redactedText value) = false := by
  unfold redactedText
  split
  · decide
  next clean => simpa using clean

theorem redactedText_again (value : String) : redactedText (redactedText value) = redactedText value := by
  obtain ⟨plain, apart⟩ := redactedText_clean value
  rw [redactedText, plain, apart]
  rfl

theorem sanitizeValue_clean (value : Json) : CleanDetails (sanitizeValue value) := by
  intro part member
  obtain ⟨keyed, shown⟩ := Json.scrub_clean member
  refine ⟨keyed, fun value same => ?_⟩
  obtain ⟨original, rfl⟩ := shown value same
  exact redactedText_clean original

theorem sanitizeValue_object (details : JsonObject) :
    sanitizeValue (.object details) = .object (sanitizeDetails details) := by
  rw [sanitizeValue, Json.scrub, sanitizeDetails]

theorem sanitizeDetails_clean (details : JsonObject) : CleanDetails (.object (sanitizeDetails details)) := by
  rw [← sanitizeValue_object]
  exact sanitizeValue_clean _

theorem sanitizeReason_clean {reason : Option String} {value : String} (kept : sanitizeReason reason = some value) :
    sensitiveDetailValue value = false ∧ uuidDetailValue value = false := by
  cases reason with
  | none => cases kept
  | some reason =>
      rw [sanitizeReason] at kept
      split at kept
      next empty =>
        rw [← Option.some.inj kept, empty]
        decide
      next => rw [← Option.some.inj kept]; exact redactedText_clean reason

/-- Details are scrubbed at every depth and nothing else of them changes; every event that
reaches the repository has such details and such a reason. -/
theorem details_scrubbed {σ ε : Type} (record : NewActivityEvent → σ → Except ε ActivityEvent × σ) (repository : σ)
    (inputs : List NewActivityEvent) (details : JsonObject) :
    CleanDetails (.object (sanitizeDetails details)) ∧
      (∀ path, ((Json.object (sanitizeDetails details)).reach path).map Json.surface =
        if path.any (Json.Step.under sensitiveDetailKey) then none
        else ((Json.object details).reach path).map fun part =>
          part.surface.scrub sensitiveDetailKey redactedText) ∧
      sanitizeDetails (sanitizeDetails details) = sanitizeDetails details ∧
      ∀ event ∈ (ActivityService.captureAll record ⟨repository, [], []⟩ inputs).handed,
        (∃ kept, event.details = some kept ∧ CleanDetails (.object kept)) ∧
          ∀ reason, event.reason = some reason →
            sensitiveDetailValue reason = false ∧ uuidDetailValue reason = false := by
  refine ⟨sanitizeDetails_clean details, fun path => ?_, ?_, fun event handed => ?_⟩
  · rw [← sanitizeValue_object]
    exact Json.reach_scrub path (.object details)
  · exact Json.scrubFields_again redactedText_again details
  · rw [handed_captureAll, List.nil_append] at handed
    obtain ⟨input, -, rfl⟩ := List.mem_map.mp handed
    exact ⟨⟨_, rfl, sanitizeDetails_clean _⟩, fun reason kept => sanitizeReason_clean kept⟩

example : redactedText "copied lic_secret by mistake" = "[REDACTED]" := by decide

example : sensitiveDetailKey "sessionToken" = true ∧ sensitiveDetailKey "License-Key" = true ∧
    sensitiveDetailKey "keyPrefix" = false := by decide

end Keyzori
