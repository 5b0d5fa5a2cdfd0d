import Keyzori.ClientIp.Resolver

namespace Keyzori

/-- The first address that is not trusted, from the socket back through the
chain, or the one that the chain begins with. -/
def chainHop (trusted : String → Bool) (socketIp : String) (addresses : List String) : String :=
  ((socketIp :: addresses.reverse).find? fun address => !trusted address).getD
    (addresses.head?.getD socketIp)

def ValidChain (net : Net) (header : Option String) (addresses : List String) : Prop :=
  ∃ forwarded, header = some forwarded ∧
    (splitText ',' forwarded).map (normalizeIpAddress net) = addresses.map some ∧
    addresses.length ≤ maxForwardedChainLength

def socketText (net : Net) (request : ForwardedRequest) : String :=
  let text := request.peer.getD fallbackIp
  if normalizeIpAddress net text = none then fallbackIp else text

def socketAddress (net : Net) (request : ForwardedRequest) : String :=
  (normalizeIpAddress net (request.peer.getD fallbackIp)).getD fallbackIp

def readTexts (header : TrustedProxyHeader) (request : ForwardedRequest) : List String :=
  match header with
  | .xForwardedFor => writtenEntries request.xForwardedFor
  | .cfConnectingIp => request.cfConnectingIp.toList
  | .xRealIp => request.xRealIp.toList
  | .any => request.cfConnectingIp.toList ++ request.xRealIp.toList ++ writtenEntries request.xForwardedFor

/-- A header is there, and all that are there resolve to the address. -/
structure Agreed (net : Net) (options : ClientIpOptions) (request : ForwardedRequest)
    (address : String) : Prop where
  header : request.cfConnectingIp ≠ none ∨ request.xRealIp ≠ none ∨ request.xForwardedFor ≠ none
  single : ∀ value ∈ request.cfConnectingIp.toList ++ request.xRealIp.toList,
    normalizeIpAddress net value = some address
  chain : ∀ forwarded, request.xForwardedFor = some forwarded → ∃ addresses,
    ValidChain net (some forwarded) addresses ∧
      chainHop (ClientIpResolver.isTrusted net options) (socketAddress net request) addresses = address

structure KnownTexts (net : Net) : Prop where
  empty : net.isIP "" = 0
  fallback : net.isIP fallbackIp = 4

section Hops

variable {net : Net} {options : ClientIpOptions} {request : ForwardedRequest} {socketIp : String}

theorem normalize_fallback (texts : KnownTexts net) :
    normalizeIpAddress net fallbackIp = some fallbackIp := by
  have trimmed : trim fallbackIp = fallbackIp := by decide +kernel
  have joined : String.intercalate "." ((splitText '.' fallbackIp).map numberText) = fallbackIp := by
    decide +kernel
  rw [normalizeIpAddress]
  simp only [trimmed, texts.fallback, if_true, joined]

theorem normalize_nothing (texts : KnownTexts net) : normalizeIpAddress net "" = none := by
  have blank : trim "" = "" := by decide +kernel
  simp [normalizeIpAddress, blank, texts.empty]

theorem socket_normal (texts : KnownTexts net) (request : ForwardedRequest) :
    normalizeIpAddress net (socketText net request) = some (socketAddress net request) := by
  rw [socketText, socketAddress]
  split
  · next missing =>
      rw [missing]
      exact normalize_fallback texts
  · next valid =>
      obtain ⟨address, normal⟩ := Option.ne_none_iff_exists'.mp valid
      rw [normal]
      rfl

theorem walk_first (current : String) {entries addresses : List String}
    (valid : entries.map (normalizeIpAddress net) = addresses.map some) :
    ClientIpResolver.walk net options socketIp current entries =
      ((current :: addresses).find? fun address => !ClientIpResolver.isTrusted net options address).getD
        ((current :: addresses).getLast (List.cons_ne_nil _ _)) := by
  induction addresses generalizing current entries with
  | nil =>
      obtain rfl := List.map_eq_nil_iff.mp valid
      rw [ClientIpResolver.walk, List.find?_singleton]
      split <;> rfl
  | cons address addresses ih =>
      obtain ⟨entry, earlier, rfl, normal, tail⟩ := List.map_eq_cons_iff.mp valid
      rw [ClientIpResolver.walk, normal, Option.getD_some, List.find?_cons]
      cases ClientIpResolver.isTrusted net options current with
      | false => rfl
      | true => exact ih address tail

theorem splitText_ne_nil (separator : Char) (text : String) : splitText separator text ≠ [] := by
  simp [splitText, List.splitOn_ne_nil]

theorem chain_resolved (texts : KnownTexts net) (socketIp : String) (header : Option String) :
    (∀ addresses, ValidChain net header addresses →
      ClientIpResolver.resolveForwardedChain net options header socketIp =
        chainHop (ClientIpResolver.isTrusted net options) socketIp addresses) ∧
    ((∀ addresses, ¬ValidChain net header addresses) →
      ClientIpResolver.resolveForwardedChain net options header socketIp = socketIp) := by
  cases header with
  | none => exact ⟨fun addresses ⟨_, present, _⟩ => absurd present nofun, fun _ => rfl⟩
  | some forwarded =>
      rw [ClientIpResolver.resolveForwardedChain]
      by_cases blank : forwarded = ""
      · refine ⟨?_, fun _ => if_pos blank⟩
        rintro addresses ⟨_, same, valid, -⟩
        obtain rfl := blank ▸ Option.some.inj same
        have single : splitText ',' "" = [""] := rfl
        rw [single, List.map_singleton, normalize_nothing texts] at valid
        have member : (none : Option String) ∈ addresses.map some := valid ▸ List.mem_singleton_self _
        simp at member
      rw [if_neg blank]
      constructor
      · rintro addresses ⟨_, same, valid, few⟩
        obtain rfl := Option.some.inj same
        have lengths := congrArg List.length valid
        rw [List.length_map, List.length_map] at lengths
        have accepted : ¬((splitText ',' forwarded).length > maxForwardedChainLength ∨
            (splitText ',' forwarded).any (fun entry => normalizeIpAddress net entry = none) = true) := by
          rintro (long | invalid)
          · omega
          · obtain ⟨entry, member, missing⟩ := List.any_eq_true.mp invalid
            have listed := List.mem_map_of_mem (f := normalizeIpAddress net) member
            rw [valid, of_decide_eq_true missing] at listed
            simp at listed
        have filled : addresses ≠ [] := by
          rintro rfl
          exact splitText_ne_nil ',' forwarded (List.map_eq_nil_iff.mp valid)
        have reversed : (splitText ',' forwarded).reverse.map (normalizeIpAddress net) =
            addresses.reverse.map some := by
          rw [List.map_reverse, valid, List.map_reverse]
        rw [if_neg accepted, walk_first socketIp reversed, chainHop]
        congr 1
        rw [List.getLast_cons (List.reverse_ne_nil_iff.mpr filled), List.getLast_reverse,
          List.head?_eq_some_head filled]
        rfl
      · intro invalid
        refine if_pos ?_
        by_contra accepted
        rw [not_or] at accepted
        have valid : ∀ entry ∈ splitText ',' forwarded, ∃ address, normalizeIpAddress net entry = some address := by
          intro entry member
          refine Option.ne_none_iff_exists'.mp fun missing => accepted.2 ?_
          exact List.any_eq_true.mpr ⟨entry, member, decide_eq_true missing⟩
        refine invalid ((splitText ',' forwarded).filterMap (normalizeIpAddress net)) ⟨forwarded, rfl, ?_, ?_⟩
        · rw [List.map_filterMap_some_eq_filter_map_isSome, List.filter_eq_self.mpr]
          intro normal member
          obtain ⟨entry, listed, rfl⟩ := List.mem_map.mp member
          obtain ⟨address, normal⟩ := valid entry listed
          exact normal ▸ rfl
        · exact Nat.le_trans (List.length_filterMap_le _ _) (Nat.le_of_not_lt accepted.1)

def singleTexts (request : ForwardedRequest) : List String :=
  request.cfConnectingIp.toList ++ request.xRealIp.toList

def resolvedHeaders (net : Net) (options : ClientIpOptions) (request : ForwardedRequest)
    (socketIp : String) : List String :=
  (singleTexts request).filterMap (normalizeIpAddress net) ++
    (request.xForwardedFor.map fun forwarded =>
      ClientIpResolver.resolveForwardedChain net options (some forwarded) socketIp).toList

theorem mem_resolved {address : String} : address ∈ resolvedHeaders net options request socketIp ↔
    (∃ value ∈ singleTexts request, normalizeIpAddress net value = some address) ∨
      ∃ forwarded, request.xForwardedFor = some forwarded ∧
        ClientIpResolver.resolveForwardedChain net options (some forwarded) socketIp = address := by
  rw [resolvedHeaders, List.mem_append, List.mem_filterMap, Option.mem_toList, Option.map_eq_some_iff]

theorem reconcile_iff {address : String} (other : address ≠ socketIp) :
    ClientIpResolver.reconcileHeaders net options request socketIp = address ↔
      (∀ value ∈ singleTexts request, normalizeIpAddress net value ≠ none) ∧
        resolvedHeaders net options request socketIp ≠ [] ∧
          ∀ resolved ∈ resolvedHeaders net options request socketIp, resolved = address := by
  have texts : [request.cfConnectingIp, request.xRealIp].filterMap id = singleTexts request := by
    cases request with
    | mk peer cloudflare forwarded realIp => cases cloudflare <;> cases realIp <;> rfl
  rw [ClientIpResolver.reconcileHeaders]
  simp only [texts]
  rw [← resolvedHeaders]
  split
  · next invalid =>
      obtain ⟨value, member, missing⟩ := List.any_eq_true.mp invalid
      refine iff_of_false other.symm fun holds => holds.1 value member (of_decide_eq_true missing)
  · next accepted =>
      have valid : ∀ value ∈ singleTexts request, normalizeIpAddress net value ≠ none :=
        fun value member missing =>
          accepted (List.any_eq_true.mpr ⟨value, member, decide_eq_true missing⟩)
      cases resolvedHeaders net options request socketIp with
      | nil => exact iff_of_false other.symm fun holds => holds.2.1 rfl
      | cons first others =>
          dsimp only
          split
          · next same =>
              constructor
              · rintro rfl
                refine ⟨valid, List.cons_ne_nil _ _, List.forall_mem_cons.mpr ⟨rfl, ?_⟩⟩
                exact fun resolved member => of_decide_eq_true (List.all_eq_true.mp same resolved member)
              · exact fun holds => holds.2.2 first (.head _)
          · next differ =>
              refine iff_of_false other.symm fun holds => differ ?_
              have head := holds.2.2 first (.head _)
              refine List.all_eq_true.mpr fun resolved member => decide_eq_true ?_
              exact (holds.2.2 resolved (.tail _ member)).trans head.symm

theorem resolved_single {value address : String} (member : value ∈ singleTexts request)
    (normal : normalizeIpAddress net value = some address) :
    address ∈ resolvedHeaders net options request socketIp :=
  mem_resolved.mpr (.inl ⟨value, member, normal⟩)

theorem resolved_chain {forwarded : String} (present : request.xForwardedFor = some forwarded) :
    ClientIpResolver.resolveForwardedChain net options (some forwarded) socketIp ∈
      resolvedHeaders net options request socketIp :=
  mem_resolved.mpr (.inr ⟨forwarded, present, rfl⟩)

theorem agreed_filled {address : String} (agreed : Agreed net options request address) :
    resolvedHeaders net options request socketIp ≠ [] := by
  by_cases single : singleTexts request = []
  · have chained : request.xForwardedFor ≠ none := by
      have absent := List.append_eq_nil_iff.mp single
      simp only [Option.toList_eq_nil_iff] at absent
      exact (agreed.header.resolve_left (not_not_intro absent.1)).resolve_left (not_not_intro absent.2)
    obtain ⟨forwarded, present⟩ := Option.ne_none_iff_exists'.mp chained
    exact List.ne_nil_of_mem (resolved_chain present)
  · obtain ⟨value, member⟩ := List.exists_mem_of_ne_nil _ single
    exact List.ne_nil_of_mem (resolved_single member (agreed.single value member))

theorem agreed_all (texts : KnownTexts net) {address : String}
    (agreed : Agreed net options request address) :
    ∀ resolved ∈ resolvedHeaders net options request (socketAddress net request), resolved = address := by
  intro resolved member
  rcases mem_resolved.mp member with ⟨value, listed, normal⟩ | ⟨forwarded, present, rfl⟩
  · exact Option.some.inj (normal.symm.trans (agreed.single value listed))
  · obtain ⟨addresses, chain, hop⟩ := agreed.chain forwarded present
    exact ((chain_resolved texts _ _).1 addresses chain).trans hop

theorem reconcile_agreed (texts : KnownTexts net) {address : String}
    (agreed : Agreed net options request address) :
    ClientIpResolver.reconcileHeaders net options request (socketAddress net request) = address := by
  by_cases socket : ClientIpResolver.reconcileHeaders net options request (socketAddress net request) =
      socketAddress net request
  · by_contra differ
    rw [socket] at differ
    refine differ (socket.symm.trans ((reconcile_iff (Ne.symm differ)).mpr ?_))
    refine ⟨fun value member missing => ?_, agreed_filled agreed, agreed_all texts agreed⟩
    have normal := agreed.single value member
    rw [missing] at normal
    cases normal
  · obtain ⟨-, filled, all⟩ := (reconcile_iff socket).mp rfl
    obtain ⟨resolved, member⟩ := List.exists_mem_of_ne_nil _ filled
    exact (all resolved member).symm.trans (agreed_all texts agreed resolved member)

theorem agreed_reconcile (texts : KnownTexts net)
    (other : ClientIpResolver.reconcileHeaders net options request (socketAddress net request) ≠
      socketAddress net request) :
    Agreed net options request
      (ClientIpResolver.reconcileHeaders net options request (socketAddress net request)) := by
  obtain ⟨valid, filled, all⟩ := (reconcile_iff other).mp rfl
  refine ⟨?_, fun value member => ?_, fun forwarded present => ?_⟩
  · by_contra absent
    simp only [not_or, not_not] at absent
    refine filled ?_
    simp [resolvedHeaders, singleTexts, absent]
  · obtain ⟨normal, resolved⟩ := Option.ne_none_iff_exists'.mp (valid value member)
    rw [resolved, all normal (resolved_single member resolved)]
  · have same := all _ (resolved_chain present)
    obtain ⟨hop, plain⟩ := chain_resolved texts _ (some forwarded)
    by_contra invalid
    refine other (same.symm.trans (plain fun addresses chain => invalid ⟨addresses, chain, ?_⟩))
    exact (hop addresses chain).symm.trans same

theorem chainHop_mem (trusted : String → Bool) (socketIp : String) (addresses : List String) :
    chainHop trusted socketIp addresses ∈ socketIp :: addresses := by
  rw [chainHop]
  cases found : (socketIp :: addresses.reverse).find? fun address => !trusted address with
  | some hop =>
      have member := List.mem_of_find?_eq_some found
      rw [List.mem_cons, List.mem_reverse] at member
      exact List.mem_cons.mpr member
  | none =>
      cases addresses with
      | nil => exact .head _
      | cons first rest => exact .tail _ (.head _)

theorem chain_read {header : Option String} {addresses : List String} {address : String}
    (chain : ValidChain net header addresses) (member : address ∈ addresses) :
    ∃ text ∈ writtenEntries header, normalizeIpAddress net text = some address := by
  obtain ⟨forwarded, rfl, valid, -⟩ := chain
  have listed : some address ∈ (splitText ',' forwarded).map (normalizeIpAddress net) := by
    rw [valid]
    exact List.mem_map_of_mem member
  exact List.mem_map.mp listed

theorem resolve_trusted (enabled : options.trustProxyHeaders = true)
    (trusted : ClientIpResolver.isTrusted net options (socketAddress net request) = true) :
    ClientIpResolver.resolve net options request = match options.trustedProxyHeader with
      | .any => ClientIpResolver.reconcileHeaders net options request (socketAddress net request)
      | .cfConnectingIp =>
          (normalizeIpAddress net (request.cfConnectingIp.getD "")).getD (socketAddress net request)
      | .xRealIp => (normalizeIpAddress net (request.xRealIp.getD "")).getD (socketAddress net request)
      | .xForwardedFor => ClientIpResolver.resolveForwardedChain net options request.xForwardedFor
          (socketAddress net request) := by
  have accepted : ¬(!options.trustProxyHeaders ||
      !ClientIpResolver.isTrusted net options (socketAddress net request)) = true := by
    rw [enabled, trusted]
    decide
  exact if_neg accepted

theorem resolve_untrusted (refused : options.trustProxyHeaders = false ∨
    ClientIpResolver.isTrusted net options (socketAddress net request) = false) :
    ClientIpResolver.resolve net options request = socketAddress net request := by
  refine if_pos ?_
  rcases refused with disabled | outside
  · rw [disabled]
    rfl
  · rw [← socketAddress, outside]
    exact Bool.or_true _

theorem normalize_header (texts : KnownTexts net) (header : Option String) :
    normalizeIpAddress net (header.getD "") = header.bind (normalizeIpAddress net) := by
  cases header with
  | none => exact normalize_nothing texts
  | some value => rfl

theorem single_read {header : Option String} {address : String}
    (other : (header.bind (normalizeIpAddress net)).getD socketIp = address)
    (differ : address ≠ socketIp) :
    ∃ text ∈ header.toList, normalizeIpAddress net text = some address := by
  cases found : header.bind (normalizeIpAddress net) with
  | none => exact absurd other.symm (found ▸ differ)
  | some value =>
      obtain ⟨text, present, normal⟩ := Option.bind_eq_some_iff.mp found
      rw [found] at other
      exact ⟨text, Option.mem_toList.mpr present, normal.trans (congrArg some other)⟩

theorem chain_answer (texts : KnownTexts net) {header : Option String}
    (differ : ClientIpResolver.resolveForwardedChain net options header socketIp ≠ socketIp) :
    ∃ text ∈ writtenEntries header, normalizeIpAddress net text =
      some (ClientIpResolver.resolveForwardedChain net options header socketIp) := by
  obtain ⟨hop, plain⟩ := chain_resolved texts socketIp header
  by_cases valid : ∃ addresses, ValidChain net header addresses
  · obtain ⟨addresses, chain⟩ := valid
    have answer := hop addresses chain
    have member := chainHop_mem (ClientIpResolver.isTrusted net options) socketIp addresses
    rw [← answer] at member
    exact chain_read chain ((List.mem_cons.mp member).resolve_left differ)
  · exact absurd (plain fun addresses chain => valid ⟨addresses, chain⟩) differ

theorem agreed_read (texts : KnownTexts net) {address : String}
    (agreed : Agreed net options request address) (differ : address ≠ socketAddress net request) :
    ∃ text ∈ readTexts .any request, normalizeIpAddress net text = some address := by
  obtain ⟨resolved, member⟩ := List.exists_mem_of_ne_nil _ (agreed_filled agreed)
  obtain rfl := agreed_all texts agreed resolved member
  rcases mem_resolved.mp member with ⟨value, listed, normal⟩ | ⟨forwarded, present, hop⟩
  · exact ⟨value, List.mem_append_left _ listed, normal⟩
  · rw [← hop] at differ
    obtain ⟨text, listed, normal⟩ := chain_answer texts differ
    rw [← hop, readTexts, present]
    exact ⟨text, List.mem_append_right _ listed, normal⟩

theorem resolve_read (texts : KnownTexts net)
    (differ : ClientIpResolver.resolve net options request ≠ socketAddress net request) :
    ∃ text ∈ readTexts options.trustedProxyHeader request,
      normalizeIpAddress net text = some (ClientIpResolver.resolve net options request) := by
  have accepted : options.trustProxyHeaders = true ∧
      ClientIpResolver.isTrusted net options (socketAddress net request) = true := by
    by_contra refused
    rw [not_and_or, Bool.not_eq_true, Bool.not_eq_true] at refused
    exact differ (resolve_untrusted refused)
  rw [resolve_trusted accepted.1 accepted.2] at differ ⊢
  cases mode : options.trustedProxyHeader with
  | xForwardedFor =>
      simp only [mode] at differ ⊢
      exact chain_answer texts differ
  | cfConnectingIp =>
      simp only [mode, normalize_header texts] at differ ⊢
      exact single_read rfl differ
  | xRealIp =>
      simp only [mode, normalize_header texts] at differ ⊢
      exact single_read rfl differ
  | any =>
      simp only [mode] at differ ⊢
      exact agreed_read texts (agreed_reconcile texts differ) differ

/-- The resolved address, by what is trusted and by mode, and the texts it may come from. -/
theorem resolve_specified (net : Net) (texts : KnownTexts net) (options : ClientIpOptions)
    (request : ForwardedRequest) :
    let socketIp := socketAddress net request
    let trusted := ClientIpResolver.isTrusted net options
    let answer := ClientIpResolver.resolve net options request
    (options.trustProxyHeaders = false ∨ trusted socketIp = false → answer = socketIp) ∧
    (options.trustProxyHeaders = true → trusted socketIp = true →
      match options.trustedProxyHeader with
      | .xForwardedFor =>
          (∀ addresses, ValidChain net request.xForwardedFor addresses →
            answer = chainHop trusted socketIp addresses) ∧
          ((∀ addresses, ¬ValidChain net request.xForwardedFor addresses) → answer = socketIp)
      | .cfConnectingIp =>
          answer = (request.cfConnectingIp.bind (normalizeIpAddress net)).getD socketIp
      | .xRealIp => answer = (request.xRealIp.bind (normalizeIpAddress net)).getD socketIp
      | .any =>
          (∀ address, Agreed net options request address → answer = address) ∧
          ((∀ address, ¬Agreed net options request address) → answer = socketIp)) ∧
    ∃ text ∈ socketText net request :: readTexts options.trustedProxyHeader request,
      normalizeIpAddress net text = some answer := by
  dsimp only
  refine ⟨resolve_untrusted, fun enabled trusted => ?_, ?_⟩
  · rw [resolve_trusted enabled trusted]
    cases options.trustedProxyHeader with
    | xForwardedFor => exact chain_resolved texts _ _
    | cfConnectingIp => exact congrArg (Option.getD · _) (normalize_header texts _)
    | xRealIp => exact congrArg (Option.getD · _) (normalize_header texts _)
    | any =>
        refine ⟨fun address agreed => reconcile_agreed texts agreed, fun none => ?_⟩
        by_contra differ
        exact none _ (agreed_reconcile texts differ)
  · by_cases same : ClientIpResolver.resolve net options request = socketAddress net request
    · rw [same]
      exact ⟨_, .head _, socket_normal texts request⟩
    · obtain ⟨text, listed, normal⟩ := resolve_read texts same
      exact ⟨text, .tail _ listed, normal⟩

def hopNet : Net :=
  { sampleNet with isIP := fun text => if text = fallbackIp then 4 else sampleNet.isIP text }

theorem hopNet_texts : KnownTexts hopNet := ⟨by decide +kernel, by decide +kernel⟩

def hopRequest : ForwardedRequest :=
  ⟨some "10.0.0.3", none, some "198.51.100.9, 203.0.113.7,10.0.0.2", none⟩

theorem resolve_specified_sample :
    ClientIpResolver.resolve hopNet sampleOptions hopRequest = "203.0.113.7" ∧
      ∃ text ∈ socketText hopNet hopRequest :: readTexts .xForwardedFor hopRequest,
        normalizeIpAddress hopNet text =
          some (ClientIpResolver.resolve hopNet sampleOptions hopRequest) :=
  ⟨by decide +kernel, (resolve_specified hopNet hopNet_texts sampleOptions hopRequest).2.2⟩

end Hops

end Keyzori
