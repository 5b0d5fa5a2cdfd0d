import Keyzori.Domain.Values
import Keyzori.Library.HexDigits

/-! Which address a request comes from. What `node:net` and `URL` make of
address texts is a parameter; how the resolver walks the forwarded chain is not. -/

namespace Keyzori

open HexDigits

def splitText (separator : Char) (text : String) : List String :=
  (text.toList.splitOn separator).map String.ofList

structure Subnet where
  address : String
  prefixText : String
  family : Nat
  deriving DecidableEq, Repr

/-- `isIP`, the `hostname` of a `URL` with the address in brackets, or nothing
where it throws, and whether a subnet of a block list holds an address. -/
structure Net where
  isIP : String → Nat
  hostname : String → Option String
  contains : Subnet → String → Nat → Bool

inductive TrustedProxyHeader
  | xForwardedFor
  | cfConnectingIp
  | xRealIp
  | any
  deriving DecidableEq, Repr

structure ClientIpOptions where
  trustProxyHeaders : Bool
  trustedProxyCidrs : List String
  trustedProxyHeader : TrustedProxyHeader

structure ForwardedRequest where
  peer : Option String
  cfConnectingIp : Option String
  xForwardedFor : Option String
  xRealIp : Option String

def fallbackIp : String := "127.0.0.1"

def maxForwardedChainLength : Nat := 32

/-- `String(Number(part))` on a part of an IPv4 address. -/
def numberText (part : String) : String :=
  if part.toList ≠ [] ∧ part.toList.all Char.isDigit then
    Nat.repr (Nat.ofDigitChars 10 part.toList 0)
  else "NaN"

def lowerNumber (chars : List Char) (start : Option Nat) : Option Nat :=
  chars.foldl (fun number char => do return (← number) * 16 + (← lowerDigit char)) start

def lowerGroup (text : String) : Option Nat :=
  if text.length = 0 ∨ text.length > 4 then none else lowerNumber text.toList (some 0)

def mappedGroups (text : String) : Option (Nat × Nat) :=
  match splitText ':' text with
  | ["", "", "ffff", high, low] => do return (← lowerGroup high, ← lowerGroup low)
  | _ => none

variable (net : Net)

def normalizeIpAddress (value : String) : Option String :=
  let address := trim value
  if net.isIP address = 4 then
    some (String.intercalate "." ((splitText '.' address).map numberText))
  else if net.isIP address ≠ 6 then none
  else (net.hostname address).map fun hostname =>
    let normalized := (String.ofList (hostname.toList.tail.dropLast)).toLower
    match mappedGroups normalized with
    | none => normalized
    | some (high, low) => s!"::ffff:{high / 256}.{high % 256}.{low / 256}.{low % 256}"

def listedSubnet (cidr : String) : Option Subnet :=
  if cidr = "*" then none
  else match splitText '/' cidr with
    | address :: prefixText :: _ =>
        let family := if address = "" then 0 else net.isIP address
        if address = "" ∨ prefixText = "" ∨ family = 0 then none
        else some ⟨address, prefixText, if family = 4 then 4 else 6⟩
    | _ => none

def trustedProxies (options : ClientIpOptions) : List Subnet :=
  options.trustedProxyCidrs.filterMap (listedSubnet net)

namespace ClientIpResolver

variable (options : ClientIpOptions)

def isTrusted (address : String) : Bool :=
  let family := net.isIP address
  0 < family && ("*" ∈ options.trustedProxyCidrs ||
    (trustedProxies net options).any fun subnet =>
      net.contains subnet address (if family = 4 then 4 else 6))

/-- The loop of `resolveForwardedChain`, over the entries from the last one on. -/
def walk (socketIp current : String) : List String → String
  | [] => current
  | entry :: earlier =>
      if !isTrusted net options current then current
      else walk socketIp ((normalizeIpAddress net entry).getD socketIp) earlier

def resolveForwardedChain (forwarded : Option String) (socketIp : String) : String :=
  match forwarded with
  | none => socketIp
  | some forwarded =>
      if forwarded = "" then socketIp
      else
        let chain := splitText ',' forwarded
        if chain.length > maxForwardedChainLength ∨
            chain.any (fun entry => normalizeIpAddress net entry = none) then socketIp
        else walk net options socketIp socketIp chain.reverse

def reconcileHeaders (request : ForwardedRequest) (socketIp : String) : String :=
  let single := [request.cfConnectingIp, request.xRealIp].filterMap id
  if single.any fun value => normalizeIpAddress net value = none then socketIp
  else
    let resolved := single.filterMap (normalizeIpAddress net) ++
      (request.xForwardedFor.map fun forwarded =>
        resolveForwardedChain net options (some forwarded) socketIp).toList
    match resolved with
    | [] => socketIp
    | first :: others => if others.all (· = first) then first else socketIp

def resolve (request : ForwardedRequest) : String :=
  let socketIp := (normalizeIpAddress net (request.peer.getD fallbackIp)).getD fallbackIp
  if !options.trustProxyHeaders || !isTrusted net options socketIp then socketIp
  else match options.trustedProxyHeader with
    | .any => reconcileHeaders net options request socketIp
    | .cfConnectingIp =>
        (normalizeIpAddress net (request.cfConnectingIp.getD "")).getD socketIp
    | .xRealIp => (normalizeIpAddress net (request.xRealIp.getD "")).getD socketIp
    | .xForwardedFor => resolveForwardedChain net options request.xForwardedFor socketIp

end ClientIpResolver

section Chain

variable {net}

theorem mem_dropWhile {char : Char} {chars : List Char} (member : char ∈ chars)
    (solid : isWhiteSpace char = false) : char ∈ chars.dropWhile isWhiteSpace := by
  induction chars with
  | nil => cases member
  | cons first chars ih =>
      rw [List.dropWhile_cons]
      split
      · next blank =>
        refine ih ((List.mem_cons.mp member).resolve_left ?_)
        rintro rfl
        rw [solid] at blank
        cases blank
      · exact member

theorem mem_trim {char : Char} {value : String} (member : char ∈ value.toList)
    (solid : isWhiteSpace char = false) : char ∈ (trim value).toList := by
  simp only [trim, String.toList_ofList, List.mem_reverse]
  exact mem_dropWhile (List.mem_reverse.mpr (mem_dropWhile member solid)) solid

theorem trim_blank (value : String) : trim (" " ++ value) = trim value := by
  have blank : isWhiteSpace ' ' = true := by decide
  have start : (" " : String).toList = [' '] := rfl
  simp [trim, String.toList_append, start, blank]

theorem normalize_blank (value : String) :
    normalizeIpAddress net (" " ++ value) = normalizeIpAddress net value := by
  simp only [normalizeIpAddress, trim_blank]

structure AddressTexts (net : Net) : Prop where
  plain : ∀ text, net.isIP text ≠ 0 → ',' ∉ text.toList
  empty : net.isIP "" = 0

theorem isIP_of_normalize {text address : String} (valid : normalizeIpAddress net text = some address) :
    net.isIP (trim text) ≠ 0 := by
  intro invalid
  simp [normalizeIpAddress, invalid] at valid

theorem comma_not_mem (texts : AddressTexts net) {text address : String}
    (valid : normalizeIpAddress net text = some address) : ',' ∉ text.toList := by
  intro member
  exact texts.plain _ (isIP_of_normalize valid) (mem_trim member (by decide))

theorem normalize_empty (texts : AddressTexts net) : normalizeIpAddress net "" = none := by
  have blank : trim "" = "" := by with_unfolding_all rfl
  simp [normalizeIpAddress, blank, texts.empty]

theorem splitText_single {separator : Char} {text : String} (plain : separator ∉ text.toList) :
    splitText separator text = [text] := by
  simp [splitText, List.splitOn_eq_singleton plain]

theorem splitText_append {separator : Char} (text : String) {last : String}
    (plain : separator ∉ last.toList) :
    splitText separator (text ++ String.singleton separator ++ last) = splitText separator text ++ [last] := by
  have chars : (text ++ String.singleton separator ++ last).toList =
      text.toList ++ separator :: last.toList := by simp
  rw [splitText, chars, List.splitOn_append_cons_self, List.map_append, ← splitText,
    ← splitText, splitText_single plain]

end Chain

section Proxies

/-- What a proxy forwards: the header it got, with its own peer at the end. -/
def appendPeer (header : Option String) (peer : String) : Option String :=
  match header with
  | none => some peer
  | some value => some (value ++ ", " ++ peer)

def forwardedThrough (written : Option String) (client : String) (proxies : List String) :
    Option String :=
  (client :: proxies.dropLast).foldl appendPeer written

def writtenEntries (written : Option String) : List String := written.elim [] (splitText ',')

variable {net : Net} {options : ClientIpOptions}

variable (net) in
theorem appendPeer_entries (header : Option String) {peer : String} (plain : ',' ∉ peer.toList) :
    ∃ forwarded, appendPeer header peer = some forwarded ∧
      (splitText ',' forwarded).map (normalizeIpAddress net) =
        (writtenEntries header).map (normalizeIpAddress net) ++ [normalizeIpAddress net peer] := by
  cases header with
  | none => exact ⟨peer, rfl, by simp [splitText_single plain, writtenEntries]⟩
  | some value =>
      refine ⟨_, rfl, ?_⟩
      have spaced : ',' ∉ (" " ++ peer).toList := by
        have start : (" " : String).toList = [' '] := rfl
        simp [String.toList_append, start, plain]
      have split : splitText ',' (value ++ ", " ++ peer) = splitText ',' value ++ [" " ++ peer] := by
        rw [← splitText_append value spaced]
        congr 1
        apply String.toList_injective
        simp [String.toList_append]
      rw [split, List.map_append, List.map_singleton, normalize_blank]
      rfl

variable (net) in
theorem forwarded_entries {peers : List String} (plain : ∀ peer ∈ peers, ',' ∉ peer.toList)
    (header : Option String) :
    (writtenEntries (peers.foldl appendPeer header)).map (normalizeIpAddress net) =
      (writtenEntries header).map (normalizeIpAddress net) ++ peers.map (normalizeIpAddress net) := by
  induction peers generalizing header with
  | nil => simp
  | cons peer peers ih =>
      obtain ⟨forwarded, appended, entries⟩ := appendPeer_entries net header (plain peer (.head _))
      rw [List.foldl_cons, ih (fun other member => plain other (.tail _ member)), appended]
      simp only [writtenEntries, Option.elim] at entries ⊢
      rw [entries]
      simp

theorem walk_client {socketIp current client : String} {trusted : List String} {earlier : List String}
    {rest : List (Option String)} (here : ClientIpResolver.isTrusted net options current = true)
    (hops : ∀ hop ∈ trusted, ClientIpResolver.isTrusted net options hop = true)
    (outside : ClientIpResolver.isTrusted net options client = false)
    (chain : earlier.map (normalizeIpAddress net) = trusted.map some ++ some client :: rest) :
    ClientIpResolver.walk net options socketIp current earlier = client := by
  induction trusted generalizing current earlier with
  | nil =>
      obtain ⟨entry, others, rfl, address, -⟩ := List.map_eq_cons_iff.mp chain
      rw [ClientIpResolver.walk, here, if_neg (by decide), address, Option.getD_some]
      cases others with
      | nil => rfl
      | cons other others => rw [ClientIpResolver.walk, outside, if_pos (by decide)]
  | cons hop trusted ih =>
      obtain ⟨entry, others, rfl, address, tail⟩ := List.map_eq_cons_iff.mp chain
      rw [ClientIpResolver.walk, here, if_neg (by decide), address, Option.getD_some]
      exact ih (hops hop (.head _)) (fun other member => hops other (.tail _ member)) tail

/-- A request that came from a client through trusted proxies, the last of which
is the peer of the socket. -/
structure Proxied (net : Net) (options : ClientIpOptions) (client address : String)
    (proxies : List String) : Prop where
  enabled : options.trustProxyHeaders = true
  header : options.trustedProxyHeader = .xForwardedFor
  client : normalizeIpAddress net client = some address
  outside : ClientIpResolver.isTrusted net options address = false
  nonempty : proxies ≠ []
  trusted : ∀ proxy ∈ proxies, ∃ hop, normalizeIpAddress net proxy = some hop ∧
    ClientIpResolver.isTrusted net options hop = true

def proxiedRequest (written : Option String) (client : String) (proxies : List String) :
    ForwardedRequest :=
  { peer := proxies.getLast?
    cfConnectingIp := none
    xForwardedFor := forwardedThrough written client proxies
    xRealIp := none }

def Acceptable (net : Net) (written : Option String) (proxies : List String) : Prop :=
  (∀ entry ∈ writtenEntries written, normalizeIpAddress net entry ≠ none) ∧
    (writtenEntries written).length + proxies.length ≤ maxForwardedChainLength

theorem normalized_all {texts : List String}
    (valid : ∀ text ∈ texts, ∃ address, normalizeIpAddress net text = some address ∧
      ClientIpResolver.isTrusted net options address = true) :
    ∃ addresses : List String, texts.map (normalizeIpAddress net) = addresses.map some ∧
      ∀ address ∈ addresses, ClientIpResolver.isTrusted net options address = true := by
  induction texts with
  | nil => exact ⟨[], rfl, fun address member => by cases member⟩
  | cons text texts ih =>
      obtain ⟨address, normal, trusted⟩ := valid text (.head _)
      obtain ⟨addresses, same, all⟩ := ih fun other member => valid other (.tail _ member)
      refine ⟨address :: addresses, by simp [normal, same], ?_⟩
      intro other member
      rcases List.mem_cons.mp member with rfl | old
      · exact trusted
      · exact all other old

theorem foldl_appendPeer (peers : List String) (value : String) :
    ∃ forwarded, peers.foldl appendPeer (some value) = some forwarded := by
  induction peers generalizing value with
  | nil => exact ⟨value, rfl⟩
  | cons peer peers ih => exact ih _

theorem proxied_chain (texts : AddressTexts net) {client address : String} {proxies : List String}
    (proxied : Proxied net options client address proxies) (written : Option String) :
    ∃ forwarded, ∃ hops : List String, forwardedThrough written client proxies = some forwarded ∧ forwarded ≠ "" ∧
      (splitText ',' forwarded).map (normalizeIpAddress net) =
        (writtenEntries written).map (normalizeIpAddress net) ++ some address :: hops.map some ∧
      (∀ hop ∈ hops, ClientIpResolver.isTrusted net options hop = true) ∧
      hops.length + 1 = proxies.length := by
  have inner : ∀ proxy ∈ proxies.dropLast, ∃ hop, normalizeIpAddress net proxy = some hop ∧
      ClientIpResolver.isTrusted net options hop = true := fun proxy member =>
    proxied.trusted proxy (List.dropLast_subset _ member)
  obtain ⟨hops, same, all⟩ := normalized_all inner
  have plain : ∀ text ∈ client :: proxies.dropLast, ',' ∉ text.toList := by
    intro text member
    rcases List.mem_cons.mp member with rfl | proxy
    · exact comma_not_mem texts proxied.client
    · obtain ⟨hop, valid, -⟩ := inner text proxy
      exact comma_not_mem texts valid
  obtain ⟨first, appended, -⟩ := appendPeer_entries net written (plain client (.head _))
  obtain ⟨forwarded, whole⟩ := foldl_appendPeer proxies.dropLast first
  have header : forwardedThrough written client proxies = some forwarded := by
    rw [forwardedThrough, List.foldl_cons, appended, whole]
  have chain : (splitText ',' forwarded).map (normalizeIpAddress net) =
      (writtenEntries written).map (normalizeIpAddress net) ++ some address :: hops.map some := by
    have entries := forwarded_entries net plain written
    rwa [← forwardedThrough, header, List.map_cons, proxied.client, same] at entries
  refine ⟨forwarded, hops, header, ?_, chain, all, ?_⟩
  · rintro rfl
    have single : splitText ',' "" = [""] := rfl
    rw [single, List.map_singleton, normalize_empty texts] at chain
    have member : some address ∈ [(none : Option String)] := by
      rw [chain]
      simp
    simp at member
  · have lengths := congrArg List.length same
    have positive := List.length_pos_iff.mpr proxied.nonempty
    rw [List.length_map, List.length_map, List.length_dropLast] at lengths
    omega

theorem resolve_proxied (texts : AddressTexts net) {client address socketIp : String}
    {proxies : List String} (proxied : Proxied net options client address proxies)
    (socket : proxies.getLast?.bind (normalizeIpAddress net) = some socketIp)
    (written : Option String) :
    (Acceptable net written proxies →
        ClientIpResolver.resolve net options (proxiedRequest written client proxies) = address) ∧
      (¬Acceptable net written proxies →
        ClientIpResolver.resolve net options (proxiedRequest written client proxies) = socketIp) := by
  obtain ⟨last, ended, peer⟩ := Option.bind_eq_some_iff.mp socket
  obtain ⟨hop, normal, trusted⟩ := proxied.trusted last (List.mem_of_getLast? ended)
  obtain rfl := Option.some.inj (peer.symm.trans normal)
  obtain ⟨forwarded, hops, header, filled, chain, all, length⟩ := proxied_chain texts proxied written
  have count : (splitText ',' forwarded).length = (writtenEntries written).length + proxies.length := by
    have lengths := congrArg List.length chain
    simp only [List.length_map, List.length_append, List.length_cons] at lengths
    omega
  have invalid : ((splitText ',' forwarded).any fun entry => decide (normalizeIpAddress net entry = none)) = true ↔
      ∃ entry ∈ writtenEntries written, normalizeIpAddress net entry = none := by
    have listed : none ∈ (splitText ',' forwarded).map (normalizeIpAddress net) ↔
        none ∈ (writtenEntries written).map (normalizeIpAddress net) := by
      rw [chain]
      simp
    simpa [List.mem_map] using listed
  have start : ClientIpResolver.resolve net options (proxiedRequest written client proxies) =
      ClientIpResolver.resolveForwardedChain net options (some forwarded) socketIp := by
    simp [ClientIpResolver.resolve, proxiedRequest, ended, peer, proxied.enabled, trusted,
      proxied.header, header]
  rw [start, ClientIpResolver.resolveForwardedChain, if_neg filled]
  constructor
  · rintro ⟨valid, few⟩
    rw [if_neg]
    · have reversed : (splitText ',' forwarded).reverse.map (normalizeIpAddress net) =
          hops.reverse.map some ++ some address ::
            ((writtenEntries written).map (normalizeIpAddress net)).reverse := by
        rw [List.map_reverse, chain]
        simp
      exact walk_client trusted (fun hop member => all hop (List.mem_reverse.mp member))
        proxied.outside reversed
    · rw [not_or, invalid, count, Nat.not_lt]
      exact ⟨few, fun ⟨entry, member, missing⟩ => valid entry member missing⟩
  · intro refused
    rw [if_pos]
    rw [invalid, count]
    by_contra both
    rw [not_or, Nat.not_lt] at both
    exact refused ⟨fun entry member missing => both.2 ⟨entry, member, missing⟩, both.1⟩

/-- What a client writes into the header gets it no other address than its own
or, if it is malformed or too long, the one of the last proxy. -/
theorem client_address_fixed (texts : AddressTexts net) {client address socketIp : String}
    {proxies : List String} (proxied : Proxied net options client address proxies)
    (socket : proxies.getLast?.bind (normalizeIpAddress net) = some socketIp)
    (written other : Option String) :
    (Acceptable net written proxies →
        ClientIpResolver.resolve net options (proxiedRequest written client proxies) = address) ∧
      (¬Acceptable net written proxies →
        ClientIpResolver.resolve net options (proxiedRequest written client proxies) = socketIp) ∧
      (Acceptable net written proxies → Acceptable net other proxies →
        ClientIpResolver.resolve net options (proxiedRequest written client proxies) =
          ClientIpResolver.resolve net options (proxiedRequest other client proxies)) := by
  obtain ⟨accepted, refused⟩ := resolve_proxied texts proxied socket written
  obtain ⟨otherAccepted, -⟩ := resolve_proxied texts proxied socket other
  exact ⟨accepted, refused, fun one two => (accepted one).trans (otherAccepted two).symm⟩

def sampleAddresses : List String := ["203.0.113.7", "198.51.100.9", "10.0.0.0", "10.0.0.2", "10.0.0.3"]

def sampleNet : Net where
  isIP text := if text ∈ sampleAddresses then 4 else 0
  hostname _ := none
  contains _ address _ := (splitText '.' address).head? = some "10"

def sampleOptions : ClientIpOptions := ⟨true, ["10.0.0.0/8"], .xForwardedFor⟩

theorem sampleNet_texts : AddressTexts sampleNet := by
  refine ⟨fun text valid => ?_, by decide +kernel⟩
  have plain : ∀ address ∈ sampleAddresses, ',' ∉ address.toList := by decide +kernel
  refine plain text ?_
  by_contra unknown
  exact valid (if_neg unknown)

theorem sample_proxied :
    Proxied sampleNet sampleOptions "203.0.113.7" "203.0.113.7" ["10.0.0.2", "10.0.0.3"] := by
  refine ⟨rfl, rfl, by decide +kernel, by decide +kernel, by decide, ?_⟩
  intro proxy member
  refine ⟨proxy, ?_⟩
  rcases List.mem_pair.mp member with rfl | rfl <;> decide +kernel

theorem sample_socket : (["10.0.0.2", "10.0.0.3"] : List String).getLast?.bind
    (normalizeIpAddress sampleNet) = some "10.0.0.3" := by
  decide +kernel

theorem client_address_fixed_sample :
    ClientIpResolver.resolve sampleNet sampleOptions
        (proxiedRequest (some "198.51.100.9") "203.0.113.7" ["10.0.0.2", "10.0.0.3"]) = "203.0.113.7" ∧
      ClientIpResolver.resolve sampleNet sampleOptions
        (proxiedRequest (some "not-an-ip") "203.0.113.7" ["10.0.0.2", "10.0.0.3"]) = "10.0.0.3" :=
  ⟨(client_address_fixed sampleNet_texts sample_proxied sample_socket _ none).1
      (by simp only [Acceptable]; decide +kernel),
    (client_address_fixed sampleNet_texts sample_proxied sample_socket _ none).2.1
      (by simp only [Acceptable]; decide +kernel)⟩

/-- One malformed entry turns the client's address into the last proxy's. -/
theorem client_address_malformed :
    Proxied sampleNet sampleOptions "203.0.113.7" "203.0.113.7" ["10.0.0.2", "10.0.0.3"] ∧
      ClientIpResolver.resolve sampleNet sampleOptions
        (proxiedRequest none "203.0.113.7" ["10.0.0.2", "10.0.0.3"]) = "203.0.113.7" ∧
      ClientIpResolver.resolve sampleNet sampleOptions
        (proxiedRequest (some "not-an-ip") "203.0.113.7" ["10.0.0.2", "10.0.0.3"]) ≠ "203.0.113.7" :=
  ⟨sample_proxied, by decide +kernel, by decide +kernel⟩

end Proxies

end Keyzori
