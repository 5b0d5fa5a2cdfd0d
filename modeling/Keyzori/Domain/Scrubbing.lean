import Keyzori.Domain.Entities

namespace Keyzori.Json

section Scrub

variable (hidden : String → Bool) (text : String → String)

mutual

def scrub : Json → Json
  | array items => array (scrubItems items)
  | object fields => object (scrubFields fields)
  | string value => string (text value)
  | null => null
  | boolean value => boolean value
  | number value => number value

def scrubItems : List Json → List Json
  | [] => []
  | item :: items => scrub item :: scrubItems items

def scrubFields : List (String × Json) → List (String × Json)
  | [] => []
  | (key, value) :: fields => if hidden key then scrubFields fields else (key, scrub value) :: scrubFields fields

end

end Scrub

def keys : Json → List String
  | object fields => fields.map Prod.fst
  | _ => []

mutual

def parts : Json → List Json
  | array items => array items :: itemParts items
  | object fields => object fields :: fieldParts fields
  | value => [value]

def itemParts : List Json → List Json
  | [] => []
  | item :: items => parts item ++ itemParts items

def fieldParts : List (String × Json) → List Json
  | [] => []
  | (_, value) :: fields => parts value ++ fieldParts fields

end

inductive Step
  | key (name : String)
  | index (place : Nat)

def reach : List Step → Json → Option Json
  | [], value => some value
  | .key name :: path, object fields => (fields.lookup name).bind (reach path)
  | .index place :: path, array items => items[place]?.bind (reach path)
  | _, _ => none

/-- What a value is apart from the values inside it. -/
inductive Surface
  | null
  | boolean (value : Bool)
  | number (text : String)
  | string (value : String)
  | array (length : Nat)
  | object (keys : List String)
  deriving DecidableEq, Repr

def surface : Json → Surface
  | null => .null
  | boolean value => .boolean value
  | number text => .number text
  | string value => .string value
  | array items => .array items.length
  | object fields => .object (fields.map Prod.fst)

def Surface.scrub (hidden : String → Bool) (text : String → String) : Surface → Surface
  | string value => string (text value)
  | object keys => object (keys.filter fun key => !hidden key)
  | other => other

def Step.under (hidden : String → Bool) : Step → Bool
  | key name => hidden name
  | index _ => false

section Rules

variable {hidden : String → Bool} {text : String → String}

theorem scrubItems_eq (items : List Json) : scrubItems hidden text items = items.map (scrub hidden text) := by
  induction items with
  | nil => rw [scrubItems, List.map_nil]
  | cons item items rest => rw [scrubItems, rest, List.map_cons]

theorem keys_scrubFields (fields : List (String × Json)) :
    (scrubFields hidden text fields).map Prod.fst = (fields.map Prod.fst).filter fun key => !hidden key := by
  induction fields with
  | nil => simp [scrubFields]
  | cons field fields rest =>
      cases drop : hidden field.1 <;> simp [scrubFields, drop, rest]

theorem lookup_scrubFields (fields : List (String × Json)) (name : String) :
    (scrubFields hidden text fields).lookup name =
      if hidden name then none else (fields.lookup name).map (scrub hidden text) := by
  induction fields with
  | nil => simp [scrubFields]
  | cons field fields rest =>
      obtain ⟨key, value⟩ := field
      by_cases same : name = key
      · subst same
        cases drop : hidden name with
        | true => simpa [scrubFields, drop] using rest
        | false => simp [scrubFields, drop]
      · have apart : (name == key) = false := beq_eq_false_iff_ne.mpr same
        cases drop : hidden key with
        | true => simp only [scrubFields, drop, if_true, List.lookup_cons, apart, rest]
        | false => simp only [scrubFields, drop, Bool.false_eq_true, if_false, List.lookup_cons, apart, rest]

theorem surface_scrub (value : Json) : (value.scrub hidden text).surface = value.surface.scrub hidden text := by
  cases value with
  | array items => simp [scrub, surface, Surface.scrub, scrubItems_eq]
  | object fields => simp [scrub, surface, Surface.scrub, keys_scrubFields]
  | _ => simp [scrub, surface, Surface.scrub]

theorem reach_scrub (path : List Step) (value : Json) :
    ((value.scrub hidden text).reach path).map surface =
      if path.any (Step.under hidden) then none
      else (value.reach path).map fun part => part.surface.scrub hidden text := by
  induction path generalizing value with
  | nil => simp [reach, surface_scrub]
  | cons step path inner =>
      cases step with
      | key name =>
          cases value with
          | object fields =>
              simp only [scrub, reach, lookup_scrubFields, List.any_cons, Step.under]
              by_cases drop : hidden name
              · simp [drop]
              · cases fields.lookup name <;> simp [drop, inner]
          | _ => simp [scrub, reach]
      | index place =>
          cases value with
          | array items =>
              simp only [scrub, reach, scrubItems_eq, List.getElem?_map, List.any_cons, Step.under, Bool.false_or]
              cases items[place]? <;> simp [inner]
          | _ => simp [scrub, reach]

mutual

theorem part_scrub : ∀ (value : Json) {part : Json}, part ∈ (value.scrub hidden text).parts →
    ∃ original : Json, part = original.scrub hidden text
  | array items, part, member => by
      simp only [scrub, parts, List.mem_cons] at member
      rcases member with rfl | inside
      · exact ⟨array items, by rw [scrub]⟩
      · exact part_scrubItems items inside
  | object fields, part, member => by
      simp only [scrub, parts, List.mem_cons] at member
      rcases member with rfl | inside
      · exact ⟨object fields, by rw [scrub]⟩
      · exact part_scrubFields fields inside
  | null, part, member => ⟨null, by simpa [scrub, parts] using member⟩
  | boolean value, part, member => ⟨boolean value, by simpa [scrub, parts] using member⟩
  | number value, part, member => ⟨number value, by simpa [scrub, parts] using member⟩
  | string value, part, member => ⟨string value, by simpa [scrub, parts] using member⟩

theorem part_scrubItems : ∀ (items : List Json) {part : Json}, part ∈ itemParts (scrubItems hidden text items) →
    ∃ original : Json, part = original.scrub hidden text
  | [], part, member => by simp [scrubItems, itemParts] at member
  | item :: items, part, member => by
      simp only [scrubItems, itemParts, List.mem_append] at member
      rcases member with inside | rest
      · exact part_scrub item inside
      · exact part_scrubItems items rest

theorem part_scrubFields : ∀ (fields : List (String × Json)) {part : Json},
    part ∈ fieldParts (scrubFields hidden text fields) → ∃ original : Json, part = original.scrub hidden text
  | [], part, member => by simp [scrubFields, fieldParts] at member
  | (key, value) :: fields, part, member => by
      rw [scrubFields] at member
      split at member
      · exact part_scrubFields fields member
      · simp only [fieldParts, List.mem_append] at member
        rcases member with inside | rest
        · exact part_scrub value inside
        · exact part_scrubFields fields rest

end

/-- No hidden key is left at any depth, and every string is one that replaces another. -/
theorem scrub_clean {value part : Json} (member : part ∈ (value.scrub hidden text).parts) :
    (∀ key ∈ part.keys, hidden key = false) ∧ ∀ shown, part = string shown → ∃ original, shown = text original := by
  obtain ⟨original, rfl⟩ := part_scrub value member
  cases original with
  | object fields =>
      rw [scrub, keys, keys_scrubFields]
      refine ⟨fun key kept => ?_, fun shown same => by cases same⟩
      simpa using (List.mem_filter.mp kept).2
  | string value =>
      rw [scrub]
      refine ⟨fun key kept => (by cases kept), fun shown same => ?_⟩
      cases same
      exact ⟨value, rfl⟩
  | _ =>
      rw [scrub]
      exact ⟨fun key kept => (by cases kept), fun shown same => by cases same⟩

mutual

theorem scrub_again (again : ∀ value, text (text value) = text value) :
    ∀ value : Json, (value.scrub hidden text).scrub hidden text = value.scrub hidden text
  | array items => by simp only [scrub, scrubItems_again again items]
  | object fields => by simp only [scrub, scrubFields_again again fields]
  | string value => by simp only [scrub, again]
  | null => by simp only [scrub]
  | boolean value => by simp only [scrub]
  | number value => by simp only [scrub]

theorem scrubItems_again (again : ∀ value, text (text value) = text value) : ∀ items : List Json,
    scrubItems hidden text (scrubItems hidden text items) = scrubItems hidden text items
  | [] => by simp only [scrubItems]
  | item :: items => by simp only [scrubItems, scrub_again again item, scrubItems_again again items]

theorem scrubFields_again (again : ∀ value, text (text value) = text value) : ∀ fields : List (String × Json),
    scrubFields hidden text (scrubFields hidden text fields) = scrubFields hidden text fields
  | [] => by simp only [scrubFields]
  | (key, value) :: fields => by
      cases drop : hidden key with
      | true => simpa [scrubFields, drop] using scrubFields_again again fields
      | false => simp [scrubFields, drop, scrub_again again value, scrubFields_again again fields]

end

end Rules

section Blindness

variable (hidden : String → Bool)

mutual

inductive SameShown : Json → Json → Prop
  | refl (value : Json) : SameShown value value
  | array {items others : List Json} : SameItems items others → SameShown (array items) (array others)
  | object {fields others : List (String × Json)} : SameFields fields others →
      SameShown (object fields) (object others)

inductive SameItems : List Json → List Json → Prop
  | nil : SameItems [] []
  | cons {item other : Json} {items others : List Json} : SameShown item other → SameItems items others →
      SameItems (item :: items) (other :: others)

inductive SameFields : List (String × Json) → List (String × Json) → Prop
  | nil : SameFields [] []
  | hidden {key : String} (value other : Json) {fields others : List (String × Json)} : hidden key = true →
      SameFields fields others → SameFields ((key, value) :: fields) ((key, other) :: others)
  | shown (key : String) {value other : Json} {fields others : List (String × Json)} : SameShown value other →
      SameFields fields others → SameFields ((key, value) :: fields) ((key, other) :: others)

end

variable {hidden} {text : String → String}

mutual

theorem scrub_blind : ∀ {value other : Json}, SameShown hidden value other →
    value.scrub hidden text = other.scrub hidden text
  | _, _, .refl _ => rfl
  | _, _, .array same => by rw [scrub, scrub, scrubItems_blind same]
  | _, _, .object same => by rw [scrub, scrub, scrubFields_blind same]

theorem scrubItems_blind : ∀ {items others : List Json}, SameItems hidden items others →
    scrubItems hidden text items = scrubItems hidden text others
  | _, _, .nil => rfl
  | _, _, .cons same rest => by rw [scrubItems, scrubItems, scrub_blind same, scrubItems_blind rest]

theorem scrubFields_blind : ∀ {fields others : List (String × Json)}, SameFields hidden fields others →
    scrubFields hidden text fields = scrubFields hidden text others
  | _, _, .nil => rfl
  | _, _, .hidden _ _ drop rest => by
      rw [scrubFields, scrubFields, if_pos drop, if_pos drop, scrubFields_blind rest]
  | _, _, .shown _ same rest => by
      rw [scrubFields, scrubFields, scrub_blind same, scrubFields_blind rest]

end

end Blindness

end Keyzori.Json
