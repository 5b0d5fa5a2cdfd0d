import Keyzori.ClientIp.Resolver
import Keyzori.Library.AddressText

namespace Keyzori

open AddressText HexDigits

/-- `isIP` decides the syntax of addresses, and `URL` serializes the IPv6 ones; a text
with a zone, which `isIP` takes, is no `URL` host. -/
structure StandardNet (net : Net) : Prop where
  ipv4 : ∀ text, net.isIP text = 4 ↔ (parseIpv4 text.toList).isSome
  ipv6 : ∀ text, (parseIpv6 text.toList).isSome → net.isIP text = 6
  hostname : ∀ text, net.isIP text = 6 →
    net.hostname text = (parseIpv6 text.toList).map fun address => String.ofList ('[' :: address.text ++ [']'])

def denoted (value : String) : Option Address := parse (trim value).toList

variable {net : Net}

section Mapped

theorem lowerNumber_none (chars : List Char) : lowerNumber chars none = none := by
  induction chars with
  | nil => rfl
  | cons char chars ih => exact ih

theorem lowerNumber_hex {chars : List Char} {start number : Nat}
    (read : lowerNumber chars (some start) = some number) : hexNumber chars start = some number := by
  induction chars generalizing start with
  | nil => exact read
  | cons char chars ih =>
      cases digit : lowerDigit char with
      | none =>
          have stuck : lowerNumber (char :: chars) (some start) = lowerNumber chars none := by
            simp [lowerNumber, digit]
          rw [stuck, lowerNumber_none] at read
          cases read
      | some value =>
          have step : lowerNumber (char :: chars) (some start) =
              lowerNumber chars (some (start * 16 + value)) := by
            simp [lowerNumber, digit]
          rw [step] at read
          simp only [hexNumber, List.foldlM_cons, lowerDigit_hex digit, Option.map_some, bind, Option.bind_some]
          exact ih read

theorem lowerGroup_hex {text : String} {number : Nat} (read : lowerGroup text = some number) :
    hexGroup text.toList = some number := by
  unfold lowerGroup at read
  split at read
  · cases read
  · next sized =>
    rw [hexGroup, if_neg, lowerNumber_hex read]
    rw [not_or] at sized ⊢
    refine ⟨fun none => sized.1 ?_, sized.2⟩
    rw [← String.length_toList, none]
    rfl

theorem lowerNumber_append (first second : List Char) (start : Option Nat) :
    lowerNumber (first ++ second) start = lowerNumber second (lowerNumber first start) :=
  List.foldl_append

theorem lowerNumber_toDigits (number : Nat) : lowerNumber (Nat.toDigits 16 number) (some 0) = some number := by
  induction number using Nat.strongRecOn with
  | ind number ih =>
      rw [Nat.toDigits_eq_if (by decide)]
      split
      · next small => simp [lowerNumber, lowerDigit_digit small]
      · next large =>
        rw [lowerNumber_append, ih (number / 16) (by omega)]
        simp only [lowerNumber, List.foldl_cons, List.foldl_nil, lowerDigit_digit (Nat.mod_lt number (by decide)), bind,
          Option.bind_some, pure]
        exact congrArg some (by omega)

theorem lowerGroup_toDigits {number : Nat} (small : number < 65536) :
    lowerGroup (String.ofList (Nat.toDigits 16 number)) = some number := by
  have few : (Nat.toDigits 16 number).length ≤ 4 := (Nat.length_toDigits_le_iff (by decide) (by decide)).mpr small
  have positive : 0 < (Nat.toDigits 16 number).length := Nat.length_toDigits_pos
  rw [lowerGroup, String.length_ofList, if_neg (by omega), String.toList_ofList, lowerNumber_toDigits]

theorem mappedGroups_text {text : String} {high low : Nat} (groups : mappedGroups text = some (high, low)) :
    ∃ first second, hexGroup first = some high ∧ hexGroup second = some low ∧
      text.toList = [':'].intercalate [[], [], ['f', 'f', 'f', 'f'], first, second] := by
  rw [mappedGroups] at groups
  split at groups
  · next first second split =>
    simp only [bind, Option.bind_eq_some_iff, pure, Option.some.injEq, Prod.mk.injEq] at groups
    obtain ⟨_, upper, _, lower, rfl, rfl⟩ := groups
    refine ⟨first.toList, second.toList, lowerGroup_hex upper, lowerGroup_hex lower, ?_⟩
    have tokens := congrArg (List.map String.toList) split
    rw [splitText, List.map_map] at tokens
    have same : String.toList ∘ String.ofList = id := funext fun chars => String.toList_ofList
    rw [same, List.map_id] at tokens
    have joined : [':'].intercalate (text.toList.splitOn ':') = text.toList := List.intercalate_splitOn ':'
    rw [← joined, tokens]
    rfl
  · cases groups

theorem mappedGroups_hex {high low : Nat} (first : high < 65536) (second : low < 65536) :
    mappedGroups (String.ofList (':' :: ':' :: joinGroups [65535, high, low])) = some (high, low) := by
  have chars : ':' :: ':' :: joinGroups [65535, high, low] =
      [':'].intercalate ([] :: [] :: [65535, high, low].map (Nat.toDigits 16)) := by
    rw [List.intercalate_cons_cons, List.map_cons, List.intercalate_cons_cons]
    rfl
  have plain : ∀ token ∈ [] :: [] :: [65535, high, low].map (Nat.toDigits 16), ':' ∉ token := by
    intro token member colon
    simp only [List.mem_cons] at member
    rcases member with rfl | rfl | listed
    · cases colon
    · cases colon
    · obtain ⟨group, -, rfl⟩ := List.mem_map.mp listed
      exact colon_not_digit group (by decide) (by decide) colon
  have split : splitText ':' (String.ofList (':' :: ':' :: joinGroups [65535, high, low])) =
      ["", "", "ffff", String.ofList (Nat.toDigits 16 high), String.ofList (Nat.toDigits 16 low)] := by
    rw [splitText, String.toList_ofList, chars, List.splitOn_intercalate ':' plain (List.cons_ne_nil _ _)]
    rfl
  rw [mappedGroups, split]
  simp only [lowerGroup_toDigits first, lowerGroup_toDigits second]
  rfl

end Mapped

section Serialized

variable {address : Ipv6} {high low : Nat}

theorem text_mapped (mapped : address.mapped = some (high, low)) :
    address.text = ':' :: ':' :: joinGroups [65535, high, low] := by
  have same := mapped_groups.mp mapped
  have run : zeroRun address.groups = some (0, 5) := by
    rw [same]
    by_cases first : high = 0 <;> by_cases second : low = 0 <;>
      simp [zeroRun, longestZeros, zeros, List.range_succ, first, second]
  rw [Ipv6.text, run]
  simp only [same]
  rfl

theorem mappedGroups_serialized : mappedGroups (String.ofList address.text) = address.mapped := by
  cases mapped : address.mapped with
  | some groups =>
      have same := mapped_groups.mp mapped
      rw [text_mapped mapped, mappedGroups_hex (address.small groups.1 (by simp [same]))
        (address.small groups.2 (by simp [same]))]
  | none =>
      cases groups : mappedGroups (String.ofList address.text) with
      | none => rfl
      | some found =>
          obtain ⟨first, second, upper, lower, text⟩ := mappedGroups_text groups
          rw [String.toList_ofList, List.intercalate_cons_cons, List.intercalate_cons_cons] at text
          have plain : ∀ token ∈ [['f', 'f', 'f', 'f'], first, second], ':' ∉ token := by
            simp only [List.mem_cons, List.not_mem_nil, or_false, forall_eq_or_imp, forall_eq]
            exact ⟨by decide, fun colon => absurd (hexGroup_solid upper ':' colon) (by decide),
              fun colon => absurd (hexGroup_solid lower ':' colon) (by decide)⟩
          have start : hexGroup ['f', 'f', 'f', 'f'] = some 65535 := by decide
          have tail : tailGroups [['f', 'f', 'f', 'f'], first, second] = some [65535, found.1, found.2] := by
            simp only [tailGroups, start, upper, lower, bind, Option.bind_some]
            rfl
          have read := readGroups_double plain (by simp [List.intercalate_cons_cons]) tail (by simp)
          have same := parseIpv6_groups (parseIpv6_text address)
          rw [text] at same
          have groups : address.groups = [0, 0, 0, 0, 0, 65535, found.1, found.2] :=
            Option.some.inj (same.symm.trans read)
          rw [mapped_groups.mpr groups] at mapped
          cases mapped

end Serialized

section Normalized

theorem toLower_serialized (address : Ipv6) :
    (String.ofList address.text).toLower = String.ofList address.text := by
  have lower : textChars.all (fun char => char.toLower = char) = true := by decide
  apply String.toList_injective
  change ((String.ofList address.text).map Char.toLower).toList = _
  rw [String.toList_map, String.toList_ofList]
  have same : address.text.map Char.toLower = address.text.map id :=
    List.map_congr_left fun char member =>
      of_decide_eq_true (List.all_eq_true.mp lower char (ipv6_chars address char member))
  rw [same, List.map_id]

theorem dropWhile_solid {chars : List Char} (solid : ∀ char ∈ chars, isWhiteSpace char = false) :
    chars.dropWhile isWhiteSpace = chars := by
  cases chars with
  | nil => rfl
  | cons char chars => rw [List.dropWhile_cons, if_neg (by simp [solid char (.head _)])]

theorem trim_solid {text : String} (solid : ∀ char ∈ text.toList, isWhiteSpace char = false) : trim text = text := by
  have reversed : ∀ char ∈ text.toList.reverse, isWhiteSpace char = false := fun char member =>
    solid char (List.mem_reverse.mp member)
  rw [trim, dropWhile_solid solid, dropWhile_solid reversed, List.reverse_reverse, String.ofList_toList]

theorem trim_text (address : Address) : trim (String.ofList address.text) = String.ofList address.text := by
  have solid : textChars.all (fun char => !isWhiteSpace char) = true := by decide
  refine trim_solid fun char member => (Bool.not_eq_true' _).mp
    (List.all_eq_true.mp solid char (text_chars address char ?_))
  rwa [String.toList_ofList] at member

theorem numberText_digits (number : Nat) :
    numberText (String.ofList (Nat.toDigits 10 number)) = String.ofList (Nat.toDigits 10 number) := by
  have digits : (Nat.toDigits 10 number).all Char.isDigit = true :=
    List.all_eq_true.mpr fun char member => Nat.isDigit_of_mem_toDigits (by decide) (by decide) member
  rw [numberText, String.toList_ofList, if_pos ⟨Nat.toDigits_ne_nil, digits⟩, Nat.ofDigitChars_ten_toDigits,
    Nat.repr_eq_ofList_toDigits]

theorem joined_decimals (octets : List Nat) :
    String.intercalate "." ((octets.map (Nat.toDigits 10)).map String.ofList) =
      String.ofList (['.'].intercalate (octets.map (Nat.toDigits 10))) := by
  have same : String.toList ∘ String.ofList = id := funext fun chars => String.toList_ofList
  apply String.toList_injective
  rw [String.toList_intercalate, List.map_map, same, List.map_id]
  simp only [String.toList_ofList]
  rfl

theorem normalize_ipv4 {value : String} {address : Ipv4} (text : value.toList = address.text) :
    String.intercalate "." ((splitText '.' value).map numberText) = String.ofList address.text := by
  have some : address.octets.map (Nat.toDigits 10) ≠ [] := fun none => by
    have four := address.four
    rw [List.map_eq_nil_iff.mp none] at four
    cases four
  have plain : ∀ token ∈ address.octets.map (Nat.toDigits 10), '.' ∉ token := by
    intro token member
    obtain ⟨octet, -, rfl⟩ := List.mem_map.mp member
    exact dot_not_digit octet (by decide) (by decide)
  have tokens : (splitText '.' value).map numberText =
      (address.octets.map (Nat.toDigits 10)).map String.ofList := by
    rw [splitText, text, Ipv4.text, List.splitOn_intercalate '.' plain some, List.map_map, List.map_map, List.map_map]
    exact List.map_congr_left fun octet _ => numberText_digits octet
  rw [tokens, joined_decimals]
  rfl

theorem normalize_ipv6 (address : Ipv6) :
    (match mappedGroups (String.ofList address.text) with
      | none => String.ofList address.text
      | some (high, low) => s!"::ffff:{high / 256}.{high % 256}.{low / 256}.{low % 256}") =
      String.ofList (Address.v6 address).text := by
  rw [mappedGroups_serialized]
  simp only [Address.text]
  cases address.mapped with
  | none => rfl
  | some groups =>
      have start : "::ffff:".toList = [':', ':', 'f', 'f', 'f', 'f', ':'] := by decide
      have dot : ".".toList = ['.'] := by decide
      apply String.toList_injective
      simp only [mappedText, List.map_cons, List.map_nil, List.intercalate_cons_cons, List.intercalate_singleton,
        String.toList_append, String.toList_ofList, start, dot, toString, Nat.toList_repr, List.nil_append,
        List.append_assoc, List.cons_append]

theorem normalize_denoted (standard : StandardNet net) (value : String) :
    normalizeIpAddress net value = (denoted value).map fun address => String.ofList address.text := by
  unfold normalizeIpAddress denoted parse
  cases ipv4 : parseIpv4 (trim value).toList with
  | some address =>
      have known : net.isIP (trim value) = 4 := (standard.ipv4 _).mpr (by simp [ipv4])
      rw [if_pos known, normalize_ipv4 (parseIpv4_exact ipv4)]
      rfl
  | none =>
      have other : net.isIP (trim value) ≠ 4 := fun same => by simpa [ipv4] using (standard.ipv4 _).mp same
      simp only [if_neg other]
      cases ipv6 : parseIpv6 (trim value).toList with
      | some address =>
          have known := standard.ipv6 _ (by simp [ipv6] : (parseIpv6 (trim value).toList).isSome)
          have bare : ((('[' :: address.text ++ [']']) : List Char).tail.dropLast) = address.text := by simp
          rw [if_neg (not_not.mpr known), standard.hostname _ known, ipv6, Option.map_some, Option.map_some]
          simp only [String.toList_ofList, bare, toLower_serialized]
          exact congrArg some (normalize_ipv6 address)
      | none =>
          split
          · rfl
          · next known =>
            rw [standard.hostname _ (not_not.mp known), ipv6]
            rfl

/-- The texts of addresses normalize, two of them to one text just when they denote the
same address, and what normalization gives is normalized. -/
theorem normalized_exactly (standard : StandardNet net) :
    (∀ value, (normalizeIpAddress net value).isSome ↔ (denoted value).isSome) ∧
      ∀ one other first second, normalizeIpAddress net one = some first →
        normalizeIpAddress net other = some second →
          (first = second ↔ denoted one = denoted other) ∧ normalizeIpAddress net first = some first := by
  have canonical : ∀ address : Address, denoted (String.ofList address.text) = some address := by
    intro address
    rw [denoted, trim_text, String.toList_ofList, parse_text]
  refine ⟨fun value => by rw [normalize_denoted standard, Option.isSome_map],
    fun one other first second left right => ?_⟩
  rw [normalize_denoted standard, Option.map_eq_some_iff] at left right
  obtain ⟨address, meant, rfl⟩ := left
  obtain ⟨another, also, rfl⟩ := right
  refine ⟨⟨fun same => ?_, fun same => ?_⟩, ?_⟩
  · have denotes := canonical address
    rw [same, canonical another] at denotes
    rw [meant, also, denotes]
  · rw [meant, also] at same
    rw [Option.some.inj same]
  · rw [normalize_denoted standard, canonical]
    rfl

def parsingNet : Net where
  isIP text := if (parseIpv4 text.toList).isSome then 4 else if (parseIpv6 text.toList).isSome then 6 else 0
  hostname text := (parseIpv6 text.toList).map fun address => String.ofList ('[' :: address.text ++ [']'])
  contains _ _ _ := false

theorem parsingNet_standard : StandardNet parsingNet where
  ipv4 text := by
    simp only [parsingNet]
    split
    · next some => exact iff_of_true rfl some
    · next none => exact iff_of_false (by split <;> decide) none
  ipv6 text parsed := by
    have colon : (parseIpv4 text.toList).isSome = false := by
      obtain ⟨address, same⟩ := Option.isSome_iff_exists.mp parsed
      rw [parseIpv4_colon (parseIpv6_colon same)]
      rfl
    simp only [parsingNet, colon, parsed, if_true]
    rfl
  hostname text _ := rfl

theorem normalized_exactly_parsing :
    StandardNet parsingNet ∧ (∀ value, (normalizeIpAddress parsingNet value).isSome ↔ (denoted value).isSome) ∧
      ∀ one other first second, normalizeIpAddress parsingNet one = some first →
        normalizeIpAddress parsingNet other = some second →
          (first = second ↔ denoted one = denoted other) ∧ normalizeIpAddress parsingNet first = some first :=
  ⟨parsingNet_standard, normalized_exactly parsingNet_standard⟩

end Normalized

end Keyzori
