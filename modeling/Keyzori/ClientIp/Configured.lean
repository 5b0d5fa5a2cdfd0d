import Keyzori.ClientIp.Canonical
import Keyzori.ClientIp.Hops

/-! The proxy ranges of the configuration, as it accepts them and as the resolver reads
them. The two agree on an entry unless its prefix is the empty text, which is the
number zero for the one and no prefix for the other. -/

namespace Keyzori

section Config

/-- The integer that `Number(text)` is, if it is one. -/
abbrev NumberReader := String → Option Int

variable (net : Net) (number : NumberReader)

def cidrEntries (configured : String) : List String :=
  ((splitText ',' (trim configured)).map trim).filter (· ≠ "")

def checkCidr (value : String) : Except String Unit :=
  if value = "*" then
    .error "KEYZORI_TRUSTED_PROXY_CIDRS must be either * or comma-separated IPv4 or IPv6 CIDR ranges."
  else
    let parts := splitText '/' value
    let address := parts.head?.getD ""
    let family := if address = "" then 0 else net.isIP address
    let maximum : Int := if family = 4 then 32 else 128
    match parts[1]?.bind number with
    | some bits =>
        if parts[2]?.isSome ∨ family = 0 ∨ bits < 0 ∨ bits > maximum then
          .error "KEYZORI_TRUSTED_PROXY_CIDRS must contain comma-separated IPv4 or IPv6 CIDR ranges."
        else .ok ()
    | none => .error "KEYZORI_TRUSTED_PROXY_CIDRS must contain comma-separated IPv4 or IPv6 CIDR ranges."

def trustedProxyCidrs (configured : Option String) (enabled : Bool) : Except String (List String) :=
  let configured := configured.getD ""
  if trim configured = "*" then .ok ["*"]
  else
    let values := cidrEntries configured
    if enabled && values.isEmpty then
      .error "KEYZORI_TRUSTED_PROXY_CIDRS must list the immediate proxy networks when KEYZORI_TRUST_PROXY_HEADERS is true."
    else do
      values.forM (checkCidr net number)
      return values

end Config

section Ranges

structure CidrRange where
  address : String
  bits : Int
  family : Nat

variable (net : Net) (number : NumberReader) (covers : CidrRange → String → Nat → Bool)

def configuredRange (value : String) : Option CidrRange :=
  match splitText '/' value with
  | [address, prefixText] =>
      (number prefixText).map fun bits => ⟨address, bits, if net.isIP address = 4 then 4 else 6⟩
  | _ => none

def listedRange (subnet : Subnet) : Option CidrRange :=
  (number subnet.prefixText).map fun bits => ⟨subnet.address, bits, subnet.family⟩

structure CidrRange.Valid (range : CidrRange) : Prop where
  address : net.isIP range.address ≠ 0
  family : range.family = if net.isIP range.address = 4 then 4 else 6
  least : 0 ≤ range.bits
  most : range.bits ≤ if range.family = 4 then 32 else 128

/-- A block list holds the addresses that its ranges cover, the address of a range
among them; the empty text is the number zero. -/
structure BlockLists : Prop where
  contains : ∀ subnet range, listedRange number subnet = some range → range.Valid net →
    ∀ address family, net.contains subnet address family = covers range address family
  own : ∀ range, CidrRange.Valid net range → covers range range.address range.family = true
  zero : number "" = some 0

def configuredOptions (values : List String) (header : TrustedProxyHeader) : ClientIpOptions :=
  { trustProxyHeaders := true, trustedProxyCidrs := values, trustedProxyHeader := header }

/-- The addresses of the configured ranges are the trusted ones: no range is dropped or
read with another prefix, and some address is trusted. -/
structure TrustedExactly (configured : String) (options : ClientIpOptions) : Prop where
  trusts : ∀ address, ClientIpResolver.isTrusted net options address = true ↔ net.isIP address ≠ 0 ∧
    (trim configured = "*" ∨ ∃ entry ∈ cidrEntries configured, ∃ range,
      configuredRange net number entry = some range ∧
        covers range address (if net.isIP address = 4 then 4 else 6) = true)
  kept : trim configured ≠ "*" → (trustedProxies net options).map (listedRange number) =
    (cidrEntries configured).map (configuredRange net number)
  somebody : ∃ address, ClientIpResolver.isTrusted net options address = true

end Ranges

section Agreement

variable {net : Net} {number : NumberReader} {covers : CidrRange → String → Nat → Bool}
  {configured value : String} {values : List String} {header : TrustedProxyHeader}

theorem checkCidr_ok (accepted : checkCidr net number value = .ok ()) : value ≠ "*" ∧
    ∃ address prefixText range, splitText '/' value = [address, prefixText] ∧ address ≠ "" ∧
      configuredRange net number value = some range ∧ range.address = address ∧
      number prefixText = some range.bits ∧ range.Valid net := by
  unfold checkCidr at accepted
  by_cases star : value = "*"
  · rw [if_pos star] at accepted
    cases accepted
  · rw [if_neg star] at accepted
    refine ⟨star, ?_⟩
    cases read : (splitText '/' value)[1]?.bind number with
    | none => simp [read] at accepted
    | some bits =>
        simp only [read, ite_eq_right_iff, reduceCtorEq, imp_false, not_or] at accepted
        obtain ⟨single, known, least, most⟩ := accepted
        obtain ⟨prefixText, second, length⟩ := Option.bind_eq_some_iff.mp read
        obtain ⟨address, parts⟩ : ∃ address, splitText '/' value = [address, prefixText] := by
          match parts : splitText '/' value with
          | [] => rw [parts] at second; cases second
          | [_] => rw [parts] at second; cases second
          | [address, _] =>
              rw [parts] at second
              cases second
              exact ⟨address, rfl⟩
          | _ :: _ :: _ :: _ => rw [parts] at single; exact absurd rfl single
        have filled : address ≠ "" := by
          rintro rfl
          simp [parts] at known
        have family : net.isIP address ≠ 0 := by simpa [parts, filled] using known
        have within : bits ≤ if net.isIP address = 4 then 32 else 128 := by simpa [parts, filled] using most
        refine ⟨address, prefixText, ⟨address, bits, if net.isIP address = 4 then 4 else 6⟩, parts, filled, ?_, rfl,
          length, family, rfl, Int.not_lt.mp least, ?_⟩
        · simp only [configuredRange, parts, length, Option.map_some]
        · by_cases four : net.isIP address = 4
          · simpa [four] using within
          · simpa [four] using within

theorem forM_ok {α ε : Type} {check : α → Except ε Unit} {items : List α} (accepted : items.forM check = .ok ()) :
    ∀ item ∈ items, check item = .ok () := by
  induction items with
  | nil => exact fun _ member => by cases member
  | cons item items ih =>
      obtain ⟨_, first, rest⟩ := bind_ok.mp accepted
      intro other member
      rcases List.mem_cons.mp member with rfl | later
      · exact first
      · exact ih rest other later

theorem trustedProxyCidrs_ok (accepted : trustedProxyCidrs net number (some configured) true = .ok values) :
    (trim configured = "*" ∧ values = ["*"]) ∨
      (trim configured ≠ "*" ∧ values = cidrEntries configured ∧ values ≠ [] ∧
        ∀ value ∈ values, checkCidr net number value = .ok ()) := by
  simp only [trustedProxyCidrs, Option.getD_some] at accepted
  split at accepted
  · next star =>
    cases accepted
    exact .inl ⟨star, rfl⟩
  · next listed =>
    split at accepted
    · cases accepted
    · next filled =>
      obtain ⟨_, checked, same⟩ := bind_ok.mp accepted
      cases same
      refine .inr ⟨listed, rfl, fun none => filled ?_, forM_ok checked⟩
      rw [none]
      rfl

theorem listedSubnet_accepted (accepted : checkCidr net number value = .ok ()) :
    ((∃ address, splitText '/' value = [address, ""]) ∧ listedSubnet net value = none) ∨
      ((∀ address, splitText '/' value ≠ [address, ""]) ∧ ∃ subnet range,
        listedSubnet net value = some subnet ∧ listedRange number subnet = some range ∧
          configuredRange net number value = some range ∧ range.Valid net) := by
  obtain ⟨other, address, prefixText, range, parts, filled, configured, named, length, valid⟩ :=
    checkCidr_ok accepted
  have known : net.isIP address ≠ 0 := by
    rw [← named]
    exact valid.address
  by_cases empty : prefixText = ""
  · refine .inl ⟨⟨address, by rw [parts, empty]⟩, ?_⟩
    simp [listedSubnet, other, parts, empty]
  · refine .inr ⟨fun found same => ?_, ⟨address, prefixText, if net.isIP address = 4 then 4 else 6⟩, range, ?_, ?_,
      configured, valid⟩
    · rw [parts] at same
      exact empty (List.cons.inj (List.cons.inj same).2).1
    · simp [listedSubnet, other, parts, filled, empty, known]
    · have family := valid.family
      obtain ⟨network, bits, kind⟩ := range
      cases named
      simp only at family length
      rw [listedRange, length, Option.map_some, family]

section Lists

variable {values : List String} (accepted : ∀ value ∈ values, checkCidr net number value = .ok ())
include accepted

theorem listed_kept (filled : ∀ value ∈ values, ∀ address, splitText '/' value ≠ [address, ""]) :
    (values.filterMap (listedSubnet net)).map (listedRange number) = values.map (configuredRange net number) := by
  induction values with
  | nil => rfl
  | cons value values ih =>
      have rest := ih (fun other member => accepted other (.tail _ member)) fun other member =>
        filled other (.tail _ member)
      rcases listedSubnet_accepted (accepted value (.head _)) with ⟨⟨address, same⟩, -⟩ |
        ⟨-, subnet, range, listed, read, same, -⟩
      · exact absurd same (filled value (.head _) address)
      · rw [List.filterMap_cons_some listed, List.map_cons, List.map_cons, rest, read, same]

theorem listed_fewer {value address : String} (member : value ∈ values) (empty : splitText '/' value = [address, ""]) :
    (values.filterMap (listedSubnet net)).length < values.length := by
  refine List.length_filterMap_lt_length_iff_exists.mpr ⟨value, member, ?_⟩
  rcases listedSubnet_accepted (accepted value member) with ⟨-, dropped⟩ | ⟨filled, -⟩
  · exact dropped
  · exact absurd empty (filled address)

theorem listed_covers (lists : BlockLists net number covers)
    (filled : ∀ value ∈ values, ∀ address, splitText '/' value ≠ [address, ""]) (address : String) (family : Nat) :
    ((values.filterMap (listedSubnet net)).any fun subnet => net.contains subnet address family) = true ↔
      ∃ entry ∈ values, ∃ range, configuredRange net number entry = some range ∧
        covers range address family = true := by
  have each : ∀ value ∈ values, ∃ subnet range, listedSubnet net value = some subnet ∧
      configuredRange net number value = some range ∧
        net.contains subnet address family = covers range address family := by
    intro value member
    rcases listedSubnet_accepted (accepted value member) with ⟨⟨network, same⟩, -⟩ |
      ⟨-, subnet, range, listed, read, same, valid⟩
    · exact absurd same (filled value member network)
    · exact ⟨subnet, range, listed, same, lists.contains subnet range read valid address family⟩
  simp only [List.any_eq_true, List.mem_filterMap]
  constructor
  · rintro ⟨subnet, ⟨value, member, listed⟩, inside⟩
    obtain ⟨other, range, same, read, contained⟩ := each value member
    obtain rfl := Option.some.inj (same.symm.trans listed)
    exact ⟨value, member, range, read, contained.symm.trans inside⟩
  · rintro ⟨value, member, range, read, inside⟩
    obtain ⟨subnet, other, listed, same, contained⟩ := each value member
    obtain rfl := Option.some.inj (same.symm.trans read)
    exact ⟨subnet, ⟨value, member, listed⟩, contained.trans inside⟩

end Lists

theorem isTrusted_listed (plain : "*" ∉ values) (address : String) :
    ClientIpResolver.isTrusted net (configuredOptions values header) address = true ↔ net.isIP address ≠ 0 ∧
      ((values.filterMap (listedSubnet net)).any fun subnet =>
        net.contains subnet address (if net.isIP address = 4 then 4 else 6)) = true := by
  simp only [ClientIpResolver.isTrusted, trustedProxies, configuredOptions, plain, decide_false, Bool.false_or,
    Bool.and_eq_true, decide_eq_true_eq, Nat.pos_iff_ne_zero]

/-- The resolver trusts the configured ranges exactly, unless the prefix of an entry is
the empty text. -/
theorem configured_trusted (lists : BlockLists net number covers) (texts : KnownTexts net)
    (accepted : trustedProxyCidrs net number (some configured) true = .ok values) (header : TrustedProxyHeader) :
    TrustedExactly net number covers configured (configuredOptions values header) ↔
      (trim configured = "*" ∨ ∀ entry ∈ cidrEntries configured, ∀ address, splitText '/' entry ≠ [address, ""]) := by
  have fallback : net.isIP fallbackIp ≠ 0 := by rw [texts.fallback]; decide
  rcases trustedProxyCidrs_ok accepted with ⟨star, rfl⟩ | ⟨listed, rfl, nonempty, checked⟩
  · refine iff_of_true ?_ (.inl star)
    have trusted : ∀ address, ClientIpResolver.isTrusted net (configuredOptions ["*"] header) address = true ↔
        net.isIP address ≠ 0 := by
      intro address
      simp [ClientIpResolver.isTrusted, configuredOptions, Nat.pos_iff_ne_zero]
    exact ⟨fun address => by simp [trusted, star], fun other => absurd star other,
      ⟨fallbackIp, (trusted fallbackIp).mpr fallback⟩⟩
  · have plain : "*" ∉ cidrEntries configured := fun member => (checkCidr_ok (checked _ member)).1 rfl
    constructor
    · intro exactly
      refine .inr fun entry member address empty => ?_
      have fewer := listed_fewer checked member empty
      have same := congrArg List.length (exactly.kept listed)
      rw [List.length_map, List.length_map, trustedProxies] at same
      exact absurd same (Nat.ne_of_lt fewer)
    · intro filled
      replace filled := filled.resolve_left listed
      have trusted : ∀ address, ClientIpResolver.isTrusted net
          (configuredOptions (cidrEntries configured) header) address = true ↔ net.isIP address ≠ 0 ∧
            (trim configured = "*" ∨ ∃ entry ∈ cidrEntries configured, ∃ range,
              configuredRange net number entry = some range ∧
                covers range address (if net.isIP address = 4 then 4 else 6) = true) := by
        intro address
        rw [isTrusted_listed plain, listed_covers checked lists filled]
        simp only [listed, false_or]
      obtain ⟨entry, member⟩ := List.exists_mem_of_ne_nil _ nonempty
      obtain ⟨-, network, -, range, -, -, read, -, -, valid⟩ := checkCidr_ok (checked entry member)
      have own := lists.own range valid
      rw [valid.family] at own
      exact ⟨trusted, fun _ => listed_kept checked filled,
        ⟨range.address, (trusted range.address).mpr ⟨valid.address, .inr ⟨entry, member, range, read, own⟩⟩⟩⟩

end Agreement

section Samples

open AddressText

def decimalReader : NumberReader := fun text =>
  if text.toList.all Char.isDigit then some (Nat.ofDigitChars 10 text.toList 0 : Nat) else none

def addressNumber (base : Nat) (digits : List Nat) : Nat :=
  digits.foldl (fun number digit => number * base + digit) 0

/-- Whether an address agrees with a network in its first bits. An IPv4 network also has
the IPv6 addresses that its own are mapped to. -/
def agreeIn (bits : Nat) : Address → Address → Bool
  | .v4 network, .v4 address => addressNumber 256 network.octets / 2 ^ (32 - bits) =
      addressNumber 256 address.octets / 2 ^ (32 - bits)
  | .v6 network, .v6 address => addressNumber 65536 network.groups / 2 ^ (128 - bits) =
      addressNumber 65536 address.groups / 2 ^ (128 - bits)
  | .v4 network, .v6 address => address.groups.take 6 = [0, 0, 0, 0, 0, 65535] &&
      addressNumber 256 network.octets / 2 ^ (32 - bits) =
        addressNumber 65536 (address.groups.drop 6) / 2 ^ (32 - bits)
  | .v6 _, .v4 _ => false

def agreeCovers (range : CidrRange) (address : String) (_family : Nat) : Bool :=
  match parse range.address.toList, parse address.toList with
  | some network, some address => agreeIn range.bits.toNat network address
  | _, _ => false

def rangesNet : Net :=
  { parsingNet with contains := fun subnet address family =>
      (listedRange decimalReader subnet).any fun range => agreeCovers range address family }

theorem agreeIn_self (bits : Nat) (address : Address) : agreeIn bits address address = true := by
  cases address <;> simp [agreeIn]

theorem rangesNet_lists : BlockLists rangesNet decimalReader agreeCovers where
  contains subnet range listed _ address family := by simp [rangesNet, listed]
  own range valid := by
    have parsed : (parse range.address.toList).isSome := by
      have known := valid.address
      simp only [rangesNet, parsingNet] at known
      simp only [parse]
      cases ipv4 : parseIpv4 range.address.toList with
      | some address => rfl
      | none =>
          cases ipv6 : parseIpv6 range.address.toList with
          | some address => rfl
          | none => simp [ipv4, ipv6] at known
    obtain ⟨network, same⟩ := Option.isSome_iff_exists.mp parsed
    simp [agreeCovers, same, agreeIn_self]
  zero := by decide

theorem rangesNet_texts : KnownTexts rangesNet where
  empty := by decide
  fallback := by decide

theorem configured_trusted_sample :
    TrustedExactly rangesNet decimalReader agreeCovers "10.0.0.0/8, 2001:db8::/32"
        (configuredOptions ["10.0.0.0/8", "2001:db8::/32"] .xForwardedFor) ↔
      (trim "10.0.0.0/8, 2001:db8::/32" = "*" ∨ ∀ entry ∈ cidrEntries "10.0.0.0/8, 2001:db8::/32",
        ∀ address, splitText '/' entry ≠ [address, ""]) :=
  configured_trusted rangesNet_lists rangesNet_texts (by decide +kernel) .xForwardedFor

/-- A list with an empty prefix is accepted, and trusts nobody. -/
theorem empty_prefix_trusts_nobody :
    trustedProxyCidrs rangesNet decimalReader (some "10.0.0.0/") true = .ok ["10.0.0.0/"] ∧
      configuredRange rangesNet decimalReader "10.0.0.0/" = some ⟨"10.0.0.0", 0, 4⟩ ∧
      agreeCovers ⟨"10.0.0.0", 0, 4⟩ "10.1.2.3" 4 = true ∧
      (∀ address, ClientIpResolver.isTrusted rangesNet
        (configuredOptions ["10.0.0.0/"] .xForwardedFor) address = false) ∧
      ¬TrustedExactly rangesNet decimalReader agreeCovers "10.0.0.0/"
        (configuredOptions ["10.0.0.0/"] .xForwardedFor) := by
  have nobody : ∀ address, ClientIpResolver.isTrusted rangesNet
      (configuredOptions ["10.0.0.0/"] .xForwardedFor) address = false := by
    intro address
    have none : trustedProxies rangesNet (configuredOptions ["10.0.0.0/"] .xForwardedFor) = [] := by decide +kernel
    simp only [ClientIpResolver.isTrusted, none, List.any_nil, Bool.or_false]
    simp [configuredOptions]
  refine ⟨by decide +kernel, ?_, by decide +kernel, nobody, fun exactly => ?_⟩
  · rfl
  · obtain ⟨address, trusted⟩ := exactly.somebody
    rw [nobody address] at trusted
    cases trusted

end Samples

end Keyzori
