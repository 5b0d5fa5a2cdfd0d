import Keyzori.Domain.Entities
import Mathlib.Tactic.SplitIfs

namespace Keyzori.Json

def hexDigit (value : Nat) : Char := "0123456789abcdef".toList.getD value '0'

def escape (char : Char) : String :=
  if char = '"' then "\\\""
  else if char = '\\' then "\\\\"
  else if char.toNat = 8 then "\\b"
  else if char.toNat = 9 then "\\t"
  else if char.toNat = 10 then "\\n"
  else if char.toNat = 12 then "\\f"
  else if char.toNat = 13 then "\\r"
  else if char.toNat < 0x20 then
    "\\u00" ++ String.singleton (hexDigit (char.toNat / 16)) ++ String.singleton (hexDigit (char.toNat % 16))
  else String.singleton char

def escapeAll : List Char → String
  | [] => ""
  | char :: chars => escape char ++ escapeAll chars

def quote (value : String) : String := "\"" ++ escapeAll value.toList ++ "\""

def commas : List String → String
  | [] => ""
  | [text] => text
  | text :: texts => text ++ "," ++ commas texts

mutual

def stringify : Json → String
  | null => "null"
  | boolean value => if value then "true" else "false"
  | number text => text
  | string value => quote value
  | array items => "[" ++ commas (itemTexts items) ++ "]"
  | object fields => "\x7b" ++ commas (fieldTexts fields) ++ "\x7d"

def itemTexts : List Json → List String
  | [] => []
  | item :: items => stringify item :: itemTexts items

def fieldTexts : List (String × Json) → List String
  | [] => []
  | (name, value) :: fields => (quote name ++ ":" ++ stringify value) :: fieldTexts fields

end

def byteLength (value : Json) : Nat := value.stringify.utf8ByteSize

theorem stringify_string (value : String) : stringify (string value) = quote value := by rw [stringify]

theorem stringify_number (text : String) : stringify (number text) = text := by rw [stringify]

section Sizes

theorem hexDigit_size (value : Nat) : (hexDigit value).utf8Size = 1 := by
  have digits : "0123456789abcdef".toList.all (fun char => char.utf8Size = 1) = true := by decide +kernel
  rw [hexDigit, List.getD_eq_getElem?_getD]
  cases found : "0123456789abcdef".toList[value]? with
  | none => decide
  | some char => simpa using List.all_eq_true.mp digits char (List.mem_of_getElem? found)

theorem escape_size (char : Char) :
    (escape char).utf8ByteSize ≤ 6 * if char.toNat < 0x10000 then 1 else 2 := by
  have unit : 6 ≤ 6 * if char.toNat < 0x10000 then 1 else 2 := by split <;> omega
  refine Nat.le_trans ?_ unit
  have literal : ("\\u00" : String).utf8ByteSize = 4 := by decide
  have single := char.utf8Size_le_four
  unfold escape
  split_ifs
  all_goals first
    | decide
    | simp only [String.utf8ByteSize_append, String.utf8ByteSize_singleton, hexDigit_size, literal]
      omega

theorem quote_size (value : String) : (quote value).utf8ByteSize ≤ 6 * length value + 2 := by
  have escaped : ∀ chars : List Char, (escapeAll chars).utf8ByteSize ≤
      6 * (chars.map fun char => if char.toNat < 0x10000 then 1 else 2).sum := by
    intro chars
    induction chars with
    | nil => simp [escapeAll]
    | cons char chars ih =>
        have first := escape_size char
        simp only [escapeAll, String.utf8ByteSize_append, List.map_cons, List.sum_cons]
        omega
  have whole := escaped value.toList
  have mark : ("\"" : String).utf8ByteSize = 1 := by decide
  simp only [quote, String.utf8ByteSize_append, length, mark]
  omega

def plain (char : Char) : Bool :=
  0x20 ≤ char.toNat && char.toNat < 0x80 && char ≠ '"' && char ≠ '\\'

theorem escape_plain {char : Char} (shown : plain char = true) : (escape char).utf8ByteSize = 1 := by
  simp only [plain, Bool.and_eq_true, decide_eq_true_eq] at shown
  obtain ⟨⟨⟨low, high⟩, mark⟩, slash⟩ := shown
  rw [escape, if_neg mark, if_neg slash, if_neg (by omega), if_neg (by omega), if_neg (by omega),
    if_neg (by omega), if_neg (by omega), if_neg (by omega), String.utf8ByteSize_singleton,
    Char.utf8Size_eq_one_iff, UInt32.le_iff_toNat_le]
  exact Nat.le_of_lt_succ high

theorem escapeAll_plain {chars : List Char} (shown : ∀ char ∈ chars, plain char = true) :
    (escapeAll chars).utf8ByteSize = chars.length := by
  induction chars with
  | nil => rfl
  | cons char chars ih =>
      rw [escapeAll, String.utf8ByteSize_append, escape_plain (shown char (.head _)),
        ih fun other member => shown other (.tail _ member), List.length_cons, Nat.add_comm]

theorem quote_plain {value : String} (shown : ∀ char ∈ value.toList, plain char = true) :
    (quote value).utf8ByteSize = value.toList.length + 2 := by
  have mark : ("\"" : String).utf8ByteSize = 1 := by decide
  rw [quote, String.utf8ByteSize_append, String.utf8ByteSize_append, mark, escapeAll_plain shown]
  omega

end Sizes

example : (object [("a", array [number "1", null]), ("b\n", string "\"")]).stringify =
    "\x7b\"a\":[1,null],\"b\\n\":\"\\\"\"\x7d" := by decide

end Keyzori.Json
