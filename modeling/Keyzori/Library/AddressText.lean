import Keyzori.Library.HexDigits
import Mathlib.Data.List.Basic
import Mathlib.Data.List.SplitLengths
import Mathlib.Data.Nat.Notation

namespace AddressText

open HexDigits

section Digits

def hexNumber (chars : List Char) (start : Nat) : Option Nat :=
  chars.foldlM (fun number char => (hexValue char).map (number * 16 + ·)) start

def hexGroup (chars : List Char) : Option Nat :=
  if chars = [] ∨ chars.length > 4 then none else hexNumber chars 0

def octet (chars : List Char) : Option Nat :=
  (List.range 256).find? fun number => Nat.toDigits 10 number = chars

theorem hexNumber_append (first second : List Char) (start : Nat) :
    hexNumber (first ++ second) start = (hexNumber first start).bind (hexNumber second) := by
  rw [hexNumber, List.foldlM_append]
  rfl

theorem hexNumber_toDigits (number : Nat) : hexNumber (Nat.toDigits 16 number) 0 = some number := by
  induction number using Nat.strongRecOn with
  | ind number ih =>
      rw [Nat.toDigits_eq_if (by decide)]
      split
      · next small => simp [hexNumber, hexValue_digit small]
      · next large =>
        rw [hexNumber_append, ih (number / 16) (by omega), Option.bind_some]
        simp only [hexNumber, List.foldlM_cons, hexValue_digit (Nat.mod_lt number (by decide)), Option.map_some]
        exact congrArg some (by omega)

theorem hexGroup_toDigits {number : Nat} (small : number < 65536) :
    hexGroup (Nat.toDigits 16 number) = some number := by
  have few : (Nat.toDigits 16 number).length ≤ 4 := (Nat.length_toDigits_le_iff (by decide) (by decide)).mpr small
  rw [hexGroup, if_neg, hexNumber_toDigits]
  rw [not_or, Nat.not_lt]
  exact ⟨Nat.toDigits_ne_nil, few⟩

theorem octet_text {chars : List Char} {number : Nat} (parsed : octet chars = some number) :
    number < 256 ∧ chars = Nat.toDigits 10 number := by
  have same := @List.find?_some _ (fun number => decide (Nat.toDigits 10 number = chars)) _ _ parsed
  exact ⟨List.mem_range.mp (List.mem_of_find?_eq_some parsed), (of_decide_eq_true same).symm⟩

theorem octet_toDigits {number : Nat} (small : number < 256) : octet (Nat.toDigits 10 number) = some number := by
  cases found : octet (Nat.toDigits 10 number) with
  | none =>
      have absent := List.find?_eq_none.mp found number (List.mem_range.mpr small)
      exact absurd (decide_eq_true rfl) absent
  | some other =>
      have values := congrArg (fun chars => Nat.ofDigitChars 10 chars 0) (octet_text found).2
      simp only [Nat.ofDigitChars_ten_toDigits] at values
      rw [values]

end Digits

section Addresses

structure Ipv4 where
  octets : List Nat
  four : octets.length = 4
  small : ∀ octet ∈ octets, octet < 256
  deriving DecidableEq

structure Ipv6 where
  groups : List Nat
  eight : groups.length = 8
  small : ∀ group ∈ groups, group < 65536
  deriving DecidableEq

inductive Address
  | v4 (address : Ipv4)
  | v6 (address : Ipv6)
  deriving DecidableEq

def parseIpv4 (chars : List Char) : Option Ipv4 :=
  match (chars.splitOn '.').mapM octet with
  | none => none
  | some octets =>
      if valid : octets.length = 4 ∧ ∀ octet ∈ octets, octet < 256 then some ⟨octets, valid.1, valid.2⟩
      else none

def Ipv4.text (address : Ipv4) : List Char := ['.'].intercalate (address.octets.map (Nat.toDigits 10))

def Ipv4.groups (address : Ipv4) : List Nat :=
  match address.octets with
  | [first, second, third, fourth] => [first * 256 + second, third * 256 + fourth]
  | _ => []

def tailGroups : List (List Char) → Option (List Nat)
  | [] => some []
  | [last] =>
      match hexGroup last with
      | some group => some [group]
      | none => (parseIpv4 last).map Ipv4.groups
  | token :: next :: tokens => do
      let group ← hexGroup token
      let groups ← tailGroups (next :: tokens)
      return group :: groups

def breakDouble : List Char → Option (List Char × List Char)
  | [] => none
  | [_] => none
  | first :: second :: rest =>
      if first = ':' ∧ second = ':' then some ([], rest)
      else (breakDouble (second :: rest)).map fun parts => (first :: parts.1, parts.2)

def side (parse : List (List Char) → Option (List Nat)) (chars : List Char) : Option (List Nat) :=
  if chars = [] then some [] else parse (chars.splitOn ':')

/-- `::` stands for one group of zeros at least. -/
def readGroups (chars : List Char) : Option (List Nat) :=
  match breakDouble chars with
  | none => tailGroups (chars.splitOn ':')
  | some (left, right) => do
      let front ← side (List.mapM hexGroup) left
      let back ← side tailGroups right
      if front.length + back.length ≤ 7 then
        return front ++ List.replicate (8 - (front.length + back.length)) 0 ++ back
      else none

def parseIpv6 (chars : List Char) : Option Ipv6 :=
  match readGroups chars with
  | none => none
  | some groups =>
      if valid : groups.length = 8 ∧ ∀ group ∈ groups, group < 65536 then some ⟨groups, valid.1, valid.2⟩
      else none

def parse (chars : List Char) : Option Address :=
  match parseIpv4 chars with
  | some address => some (.v4 address)
  | none => (parseIpv6 chars).map .v6

def joinGroups (groups : List Nat) : List Char := [':'].intercalate (groups.map (Nat.toDigits 16))

def zeros (groups : List Nat) : Nat := (groups.takeWhile (· = 0)).length

def longestZeros (groups : List Nat) : Nat :=
  ((List.range groups.length).map fun start => zeros (groups.drop start)).foldl max 0

/-- The first of the longest runs of two or more zeros, with its length. -/
def zeroRun (groups : List Nat) : Option (Nat × Nat) :=
  if longestZeros groups < 2 then none
  else ((List.range groups.length).find? fun start => zeros (groups.drop start) = longestZeros groups).map
    fun start => (start, longestZeros groups)

/-- The serialization of `URL`: lower case, no leading zeros, the zero run left out. -/
def Ipv6.text (address : Ipv6) : List Char :=
  match zeroRun address.groups with
  | none => joinGroups address.groups
  | some (start, length) =>
      joinGroups (address.groups.take start) ++ ':' :: ':' :: joinGroups (address.groups.drop (start + length))

def Ipv6.mapped (address : Ipv6) : Option (Nat × Nat) :=
  match address.groups with
  | [0, 0, 0, 0, 0, 65535, high, low] => some (high, low)
  | _ => none

def mappedText (high low : Nat) : List Char :=
  [':'].intercalate [[], [], ['f', 'f', 'f', 'f'],
    ['.'].intercalate ([high / 256, high % 256, low / 256, low % 256].map (Nat.toDigits 10))]

/-- One text for every address, dotted for the mapped ones. -/
def Address.text : Address → List Char
  | v4 address => address.text
  | v6 address =>
      match address.mapped with
      | none => address.text
      | some (high, low) => mappedText high low

end Addresses

section Texts

variable {number : Nat} {chars rest : List Char} {groups : List Nat}

theorem mapM_each {α β γ : Type} {read : β → Option γ} {write : α → β} {value : α → γ} {items : List α}
    (each : ∀ item ∈ items, read (write item) = some (value item)) :
    (items.map write).mapM read = some (items.map value) := by
  induction items with
  | nil => rfl
  | cons item items ih =>
      rw [List.map_cons, List.mapM_cons, each item (.head _), ih fun other member => each other (.tail _ member)]
      rfl

theorem toDigits_chars {base : Nat} (number : Nat) (least : 1 < base) (most : base ≤ 16) :
    ∀ char ∈ Nat.toDigits base number, char ∈ "0123456789abcdef".toList := by
  have digits : ∀ digit < 16, Nat.digitChar digit ∈ "0123456789abcdef".toList := by decide
  induction number using Nat.strongRecOn with
  | ind number ih =>
      rw [Nat.toDigits_eq_if least]
      split
      · next small =>
        intro char member
        rw [List.mem_singleton.mp member]
        exact digits number (by omega)
      · next large =>
        intro char member
        rcases List.mem_append.mp member with early | last
        · exact ih (number / base) (Nat.div_lt_self (by omega) least) char early
        · rw [List.mem_singleton.mp last]
          exact digits _ (Nat.lt_of_lt_of_le (Nat.mod_lt number (by omega)) most)

theorem colon_not_digit {base : Nat} (number : Nat) (least : 1 < base) (most : base ≤ 16) :
    ':' ∉ Nat.toDigits base number := fun member =>
  absurd (toDigits_chars number least most ':' member) (by decide)

theorem dot_not_digit {base : Nat} (number : Nat) (least : 1 < base) (most : base ≤ 16) :
    '.' ∉ Nat.toDigits base number := fun member =>
  absurd (toDigits_chars number least most '.' member) (by decide)

theorem split_join (some : groups ≠ []) :
    (joinGroups groups).splitOn ':' = groups.map (Nat.toDigits 16) := by
  refine List.splitOn_intercalate ':' (fun token member => ?_) (by simpa using some)
  obtain ⟨group, -, rfl⟩ := List.mem_map.mp member
  exact colon_not_digit group (by decide) (by decide)

theorem breakDouble_word (plain : ':' ∉ chars) :
    breakDouble (chars ++ rest) = (breakDouble rest).map fun parts => (chars ++ parts.1, parts.2) := by
  induction chars with
  | nil => simp
  | cons char chars ih =>
      have other : char ≠ ':' := fun same => plain (same ▸ .head _)
      have later := ih fun member => plain (.tail _ member)
      cases text : chars ++ rest with
      | nil =>
          obtain ⟨rfl, rfl⟩ := List.append_eq_nil_iff.mp text
          rfl
      | cons second others =>
          rw [text] at later
          rw [List.cons_append, text, breakDouble, if_neg fun both => other both.1, later]
          cases breakDouble rest <;> rfl

theorem join_cons (group : Nat) (groups : List Nat) : joinGroups (group :: groups) =
    Nat.toDigits 16 group ++ if groups = [] then [] else ':' :: joinGroups groups := by
  cases groups with
  | nil => simp [joinGroups]
  | cons next groups => simp [joinGroups, List.intercalate_cons_cons]

theorem breakDouble_join (groups : List Nat) (rest : List Char) : breakDouble (joinGroups groups ++ rest) =
    (breakDouble rest).map fun parts => (joinGroups groups ++ parts.1, parts.2) := by
  induction groups with
  | nil => simp [joinGroups]
  | cons group groups ih =>
      rw [join_cons]
      split
      · rw [List.append_nil]
        exact breakDouble_word (colon_not_digit group (by decide) (by decide))
      · next some =>
        obtain ⟨next, groups, rfl⟩ := List.exists_cons_of_ne_nil some
        obtain ⟨char, chars, digits⟩ := List.exists_cons_of_ne_nil (@Nat.toDigits_ne_nil next 16)
        have other : char ≠ ':' := by
          rintro rfl
          exact @colon_not_digit 16 next (by decide) (by decide) (by rw [digits]; exact .head _)
        have single : breakDouble (':' :: (joinGroups (next :: groups) ++ rest)) =
            (breakDouble (joinGroups (next :: groups) ++ rest)).map fun parts => (':' :: parts.1, parts.2) := by
          rw [join_cons, digits, List.cons_append, List.cons_append, breakDouble, if_neg fun both => other both.2]
        rw [List.append_assoc, List.cons_append,
          breakDouble_word (colon_not_digit group (by decide) (by decide)), single, ih]
        cases breakDouble rest <;> simp

theorem breakDouble_text (left right : List Nat) :
    breakDouble (joinGroups left ++ ':' :: ':' :: joinGroups right) = some (joinGroups left, joinGroups right) := by
  rw [breakDouble_join, breakDouble, if_pos ⟨rfl, rfl⟩, Option.map_some, List.append_nil]

theorem side_join {parse : List (List Char) → Option (List Nat)}
    (parsed : parse (groups.map (Nat.toDigits 16)) = some groups) : side parse (joinGroups groups) = some groups := by
  cases groups with
  | nil => rfl
  | cons group groups =>
      have some : joinGroups (group :: groups) ≠ [] := by
        rw [join_cons]
        exact fun none => Nat.toDigits_ne_nil (List.append_eq_nil_iff.mp none).1
      rw [side, if_neg some, split_join (List.cons_ne_nil _ _), parsed]

theorem mapM_hexGroup (small : ∀ group ∈ groups, group < 65536) :
    (groups.map (Nat.toDigits 16)).mapM hexGroup = some groups := by
  have each := @mapM_each _ _ _ hexGroup (Nat.toDigits 16) id groups fun group member =>
    hexGroup_toDigits (small group member)
  rwa [List.map_id] at each

theorem tailGroups_hex (small : ∀ group ∈ groups, group < 65536) :
    tailGroups (groups.map (Nat.toDigits 16)) = some groups := by
  induction groups with
  | nil => rfl
  | cons group groups ih =>
      have first := hexGroup_toDigits (small group (.head _))
      have others := ih fun other member => small other (.tail _ member)
      cases groups with
      | nil => simp [tailGroups, first]
      | cons next groups =>
          rw [List.map_cons, List.map_cons, tailGroups, first, ← List.map_cons, others]
          rfl

theorem takeWhile_zeros (groups : List Nat) :
    groups = List.replicate (zeros groups) 0 ++ groups.drop (zeros groups) := by
  induction groups with
  | nil => rfl
  | cons group groups ih =>
      by_cases zero : group = 0
      · have more : zeros (group :: groups) = zeros groups + 1 := by simp [zeros, zero]
        rw [more, List.replicate_succ, List.drop_succ_cons, List.cons_append, ← ih, zero]
      · have none : zeros (group :: groups) = 0 := by simp [zeros, zero]
        rw [none]
        rfl

theorem zeroRun_split {start length : Nat} (run : zeroRun groups = some (start, length)) :
    2 ≤ length ∧ start < groups.length ∧
      groups = groups.take start ++ List.replicate length 0 ++ groups.drop (start + length) := by
  unfold zeroRun at run
  split at run
  · cases run
  · next long =>
    obtain ⟨found, listed, same⟩ := Option.map_eq_some_iff.mp run
    obtain ⟨rfl, rfl⟩ := Prod.mk.inj same
    have least := of_decide_eq_true (@List.find?_some _ (fun start =>
      decide (zeros (groups.drop start) = longestZeros groups)) _ _ listed)
    refine ⟨by omega, List.mem_range.mp (List.mem_of_find?_eq_some listed), ?_⟩
    have split := takeWhile_zeros (groups.drop found)
    rw [least, List.drop_drop] at split
    rw [List.append_assoc, ← split, List.take_append_drop]

theorem parseIpv6_text (address : Ipv6) : parseIpv6 address.text = some address := by
  have read : readGroups address.text = some address.groups := by
    unfold Ipv6.text
    cases run : zeroRun address.groups with
    | none =>
        have whole := breakDouble_join address.groups []
        have some : address.groups ≠ [] := fun none => by
          have eight := address.eight
          rw [none] at eight
          cases eight
        rw [List.append_nil] at whole
        simp only [readGroups, whole, breakDouble, Option.map_none, split_join some]
        exact tailGroups_hex address.small
    | some found =>
        obtain ⟨start, length⟩ := found
        obtain ⟨long, inside, split⟩ := zeroRun_split run
        have front := side_join <| @mapM_hexGroup (address.groups.take start) fun group member =>
          address.small group (List.mem_of_mem_take member)
        have back := side_join <| @tailGroups_hex (address.groups.drop (start + length)) fun group member =>
          address.small group (List.mem_of_mem_drop member)
        have lengths := congrArg List.length split
        rw [List.length_append, List.length_append, List.length_replicate, List.length_take, List.length_drop,
          address.eight] at lengths
        have few : (address.groups.take start).length + (address.groups.drop (start + length)).length ≤ 7 := by
          rw [List.length_take, List.length_drop, address.eight]
          omega
        have rest : 8 - ((address.groups.take start).length + (address.groups.drop (start + length)).length) =
            length := by
          rw [List.length_take, List.length_drop, address.eight]
          omega
        simp only [readGroups, breakDouble_text, front, back, bind, Option.bind_some, if_pos few, rest]
        exact congrArg some split.symm
  rw [parseIpv6, read]
  exact dif_pos ⟨address.eight, address.small⟩

theorem parseIpv4_text (address : Ipv4) : parseIpv4 address.text = some address := by
  have some : address.octets.map (Nat.toDigits 10) ≠ [] := fun none => by
    have four := address.four
    rw [List.map_eq_nil_iff.mp none] at four
    cases four
  have tokens : address.text.splitOn '.' = address.octets.map (Nat.toDigits 10) := by
    refine List.splitOn_intercalate '.' (fun token member => ?_) some
    obtain ⟨octet, -, rfl⟩ := List.mem_map.mp member
    exact dot_not_digit octet (by decide) (by decide)
  have each := @mapM_each _ _ _ octet (Nat.toDigits 10) id address.octets fun number member =>
    octet_toDigits (address.small number member)
  rw [List.map_id] at each
  rw [parseIpv4, tokens, each]
  exact dif_pos ⟨address.four, address.small⟩

theorem mapM_octet {tokens : List (List Char)} {octets : List Nat} (parsed : tokens.mapM octet = some octets) :
    tokens = octets.map (Nat.toDigits 10) := by
  induction tokens generalizing octets with
  | nil =>
      cases parsed
      rfl
  | cons token tokens ih =>
      simp only [List.mapM_cons, bind, Option.bind_eq_some_iff, pure, Option.some.injEq] at parsed
      obtain ⟨number, first, numbers, others, rfl⟩ := parsed
      rw [List.map_cons, ← (octet_text first).2, ← ih others]

/-- Only its own text parses as an IPv4 address. -/
theorem parseIpv4_exact {address : Ipv4} (parsed : parseIpv4 chars = some address) : chars = address.text := by
  unfold parseIpv4 at parsed
  split at parsed
  · cases parsed
  · next octets tokens =>
    split at parsed
    · cases parsed
      rw [Ipv4.text, ← mapM_octet tokens, List.intercalate_splitOn]
    · cases parsed

theorem join_chars {separator char : Char} {tokens : List (List Char)}
    (member : char ∈ [separator].intercalate tokens) :
    char = separator ∨ ∃ token ∈ tokens, char ∈ token := by
  induction tokens with
  | nil => cases member
  | cons token tokens ih =>
      cases tokens with
      | nil => exact .inr ⟨token, .head _, by simpa using member⟩
      | cons next tokens =>
          rw [List.intercalate_cons_cons, List.append_assoc, List.mem_append, List.mem_append,
            List.mem_singleton] at member
          rcases member with first | same | later
          · exact .inr ⟨token, .head _, first⟩
          · exact .inl same
          · exact (ih later).imp_right fun ⟨other, listed, inside⟩ => ⟨other, .tail _ listed, inside⟩

theorem parseIpv4_colon (colon : ':' ∈ chars) : parseIpv4 chars = none := by
  cases parsed : parseIpv4 chars with
  | none => rfl
  | some address =>
      rw [parseIpv4_exact parsed] at colon
      rcases join_chars colon with same | ⟨token, member, inside⟩
      · cases same
      · obtain ⟨octet, -, rfl⟩ := List.mem_map.mp member
        exact absurd inside (colon_not_digit octet (by decide) (by decide))

theorem hexNumber_solid {start : Nat} (parsed : hexNumber chars start = some number) :
    ∀ char ∈ chars, (hexValue char).isSome := by
  induction chars generalizing start with
  | nil => exact fun _ member => by cases member
  | cons first chars ih =>
      simp only [hexNumber, List.foldlM_cons, bind, Option.bind_eq_some_iff, Option.map_eq_some_iff] at parsed
      obtain ⟨_, ⟨value, digit, rfl⟩, later⟩ := parsed
      intro char member
      rcases List.mem_cons.mp member with rfl | member
      · rw [digit]
        rfl
      · exact ih later char member

theorem hexGroup_solid (parsed : hexGroup chars = some number) : ∀ char ∈ chars, (hexValue char).isSome := by
  unfold hexGroup at parsed
  split at parsed
  · cases parsed
  · exact hexNumber_solid parsed

theorem hexGroup_dot (dot : '.' ∈ chars) : hexGroup chars = none := by
  cases parsed : hexGroup chars with
  | none => rfl
  | some number => exact absurd (hexGroup_solid parsed '.' dot) (by decide)

theorem readGroups_double {tokens : List (List Char)} (plain : ∀ token ∈ tokens, ':' ∉ token)
    (filled : [':'].intercalate tokens ≠ []) (parsed : tailGroups tokens = some groups)
    (few : groups.length ≤ 7) :
    readGroups (':' :: ':' :: [':'].intercalate tokens) =
      some (List.replicate (8 - groups.length) 0 ++ groups) := by
  have tokened : tokens ≠ [] := by
    rintro rfl
    exact filled rfl
  have back : side tailGroups ([':'].intercalate tokens) = some groups := by
    rw [side, if_neg filled, List.splitOn_intercalate ':' plain tokened, parsed]
  have front : side (List.mapM hexGroup) [] = some [] := rfl
  simp only [readGroups, breakDouble, and_self, if_true, front, back, bind, Option.bind_some, List.length_nil,
    Nat.zero_add, if_pos few, List.nil_append]
  rfl

theorem parseIpv6_read {address : Ipv6} (read : readGroups chars = some address.groups) :
    parseIpv6 chars = some address := by
  rw [parseIpv6, read]
  exact dif_pos ⟨address.eight, address.small⟩

theorem parseIpv6_groups {address : Ipv6} (parsed : parseIpv6 chars = some address) :
    readGroups chars = some address.groups := by
  unfold parseIpv6 at parsed
  split at parsed
  · cases parsed
  · next read =>
    split at parsed
    · cases parsed
      exact read
    · cases parsed

theorem mapped_groups {address : Ipv6} {high low : Nat} :
    address.mapped = some (high, low) ↔ address.groups = [0, 0, 0, 0, 0, 65535, high, low] := by
  unfold Ipv6.mapped
  constructor
  · intro mapped
    split at mapped
    · next same =>
      cases mapped
      exact same
    · cases mapped
  · intro same
    rw [same]
    rfl

def ofGroups (high low : Nat) (first : high < 65536) (second : low < 65536) : Ipv4 :=
  ⟨[high / 256, high % 256, low / 256, low % 256], rfl, by
    simp only [List.mem_cons, List.not_mem_nil, or_false, forall_eq_or_imp, forall_eq]
    omega⟩

theorem parseIpv6_mapped {address : Ipv6} {high low : Nat} (mapped : address.mapped = some (high, low)) :
    parseIpv6 (mappedText high low) = some address := by
  have same := mapped_groups.mp mapped
  have first : high < 65536 := address.small high (by simp [same])
  have second : low < 65536 := address.small low (by simp [same])
  let inner := ofGroups high low first second
  have text : mappedText high low = ':' :: ':' :: [':'].intercalate [['f', 'f', 'f', 'f'], inner.text] := by
    rw [mappedText, List.intercalate_cons_cons, List.intercalate_cons_cons]
    rfl
  have dot : '.' ∈ inner.text := by
    simp [inner, ofGroups, Ipv4.text, List.intercalate_cons_cons]
  have tail : tailGroups [['f', 'f', 'f', 'f'], inner.text] = some [65535, high, low] := by
    have start : hexGroup ['f', 'f', 'f', 'f'] = some 65535 := by decide
    have groups : inner.groups = [high, low] := by
      simp only [inner, ofGroups, Ipv4.groups, List.cons.injEq, and_true]
      omega
    simp only [tailGroups, start, hexGroup_dot dot, parseIpv4_text, Option.map_some, groups, bind, Option.bind_some]
    rfl
  have plain : ∀ token ∈ [['f', 'f', 'f', 'f'], inner.text], ':' ∉ token := by
    simp only [List.mem_cons, List.not_mem_nil, or_false, forall_eq_or_imp, forall_eq]
    refine ⟨by decide, fun colon => ?_⟩
    have none := parseIpv4_colon colon
    rw [parseIpv4_text] at none
    cases none
  refine parseIpv6_read ?_
  rw [text, readGroups_double plain (by simp [List.intercalate_cons_cons]) tail (by simp), same]
  rfl

theorem tailGroups_single {token : List Char} (parsed : tailGroups [token] = some groups) : groups.length < 8 := by
  unfold tailGroups at parsed
  split at parsed
  · cases parsed
    exact (by decide : 1 < 8)
  · obtain ⟨address, -, rfl⟩ := Option.map_eq_some_iff.mp parsed
    unfold Ipv4.groups
    split <;> simp

theorem parseIpv6_colon {address : Ipv6} (parsed : parseIpv6 chars = some address) : ':' ∈ chars := by
  by_contra plain
  have single := @breakDouble_word chars [] plain
  rw [List.append_nil] at single
  unfold parseIpv6 readGroups at parsed
  simp only [single, breakDouble, Option.map_none, List.splitOn_eq_singleton plain] at parsed
  split at parsed
  · cases parsed
  · next groups read =>
    have few := tailGroups_single read
    rw [dif_neg fun both => by omega] at parsed
    cases parsed

theorem parse_text (address : Address) : parse address.text = some address := by
  cases address with
  | v4 address => simp only [parse, Address.text, parseIpv4_text]
  | v6 address =>
      have parsed : parseIpv6 (Address.v6 address).text = some address := by
        simp only [Address.text]
        split
        · exact parseIpv6_text address
        · next mapped => exact parseIpv6_mapped mapped
      rw [parse, parseIpv4_colon (parseIpv6_colon parsed), parsed]
      rfl

def textChars : List Char := "0123456789abcdef:.".toList

theorem digits_chars {base : Nat} (number : Nat) (least : 1 < base) (most : base ≤ 16) :
    ∀ char ∈ Nat.toDigits base number, char ∈ textChars := fun char member =>
  (by decide : "0123456789abcdef".toList ⊆ textChars) (toDigits_chars number least most char member)

theorem decimals_chars {octets : List Nat} :
    ∀ char ∈ ['.'].intercalate (octets.map (Nat.toDigits 10)), char ∈ textChars := by
  intro char member
  rcases join_chars member with rfl | ⟨token, listed, inside⟩
  · decide
  · obtain ⟨octet, -, rfl⟩ := List.mem_map.mp listed
    exact digits_chars octet (by decide) (by decide) char inside

theorem joinGroups_chars : ∀ char ∈ joinGroups groups, char ∈ textChars := by
  intro char member
  rcases join_chars member with rfl | ⟨token, listed, inside⟩
  · decide
  · obtain ⟨group, -, rfl⟩ := List.mem_map.mp listed
    exact digits_chars group (by decide) (by decide) char inside

theorem ipv6_chars (address : Ipv6) : ∀ char ∈ address.text, char ∈ textChars := by
  unfold Ipv6.text
  split
  · exact joinGroups_chars
  · intro char member
    simp only [List.mem_append, List.mem_cons] at member
    rcases member with left | rfl | rfl | right
    · exact joinGroups_chars char left
    · decide
    · decide
    · exact joinGroups_chars char right

theorem mapped_chars (high low : Nat) : ∀ char ∈ mappedText high low, char ∈ textChars := by
  intro char member
  rcases join_chars member with rfl | ⟨token, listed, inside⟩
  · decide
  · simp only [List.mem_cons, List.not_mem_nil, or_false] at listed
    rcases listed with rfl | rfl | rfl | rfl
    · cases inside
    · cases inside
    · exact (by decide : ['f', 'f', 'f', 'f'] ⊆ textChars) inside
    · exact decimals_chars char inside

theorem text_chars (address : Address) : ∀ char ∈ address.text, char ∈ textChars := by
  cases address with
  | v4 address => exact decimals_chars
  | v6 address =>
      simp only [Address.text]
      split
      · exact ipv6_chars address
      · exact mapped_chars _ _

end Texts

end AddressText
