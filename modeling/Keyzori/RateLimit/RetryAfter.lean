import Keyzori.RateLimit.SlidingWindow
import Mathlib.Order.Bounds.Basic

namespace Keyzori

open SortedSet

def remaining (stored : Option SortedSet) (now : Nat) : Option SortedSet :=
  zremrangebyscore (find now stored) ((now : Int) - windowMs)

def serveFrom (limit : Nat) (stored : Option SortedSet) (calls : List RateLimitCall) :
    Option SortedSet × List Served :=
  calls.foldl (serve limit) (stored, [])

/-- After that many seconds a call is admitted, unless another was admitted in between. -/
def Suffices (limit : Nat) (stored : Option SortedSet) (now seconds : Nat) : Prop :=
  ∀ between later, (between ++ [later]).Pairwise (fun first second => first.now ≤ second.now) →
    (∀ one ∈ between, now ≤ one.now) → now + 1000 * seconds ≤ later.now →
      (∀ one ∈ (serveFrom limit stored between).2, one.result.allowed = false) →
        (consumeLimit limit (serveFrom limit stored between).1 later).2.allowed = true

section Answers

variable {limit last : Nat} {stored : Option SortedSet} {call : RateLimitCall}

theorem consumeLimit_allowed :
    (consumeLimit limit stored call).2.allowed = true ↔ zcard (remaining stored call.now) < limit := by
  simp only [consumeLimit, rateLimitScript, remaining]
  split
  · next full => simpa using full
  · next room => simpa using room

theorem consumeLimit_rejected (full : limit ≤ zcard (remaining stored call.now)) :
    (consumeLimit limit stored call).1 =
      expire (remaining stored call.now) call.now windowExpirySeconds := by
  simp only [consumeLimit, rateLimitScript, remaining] at full ⊢
  rw [if_pos full]

theorem consumeLimit_retryAfter {oldest : Nat} (full : limit ≤ zcard (remaining stored call.now))
    (first : oldestScore (remaining stored call.now) = some oldest) :
    (consumeLimit limit stored call).2.retryAfterSeconds =
      max 1 (ceilSeconds (oldest + 60000 - call.now)) := by
  simp only [consumeLimit, rateLimitScript, remaining] at full first ⊢
  rw [if_pos full, first]
  exact max_eq_right (le_trans (by decide) (le_max_left 1 _))

theorem find_alive {now : Nat} (alive : ∀ set, stored = some set → ∃ expiresAt,
    set.expiresAt = some expiresAt ∧ now ≤ expiresAt) : find now stored = stored := by
  cases stored with
  | none => rfl
  | some set =>
      obtain ⟨expiresAt, stamp, inTime⟩ := alive set rfl
      simp [find, stamp, inTime]

theorem remaining_sublist (stored : Option SortedSet) (now : Nat) :
    List.Sublist (entries (remaining stored now)) (entries stored) := by
  rw [remaining, members_zremrangebyscore]
  refine List.filter_sublist.trans ?_
  cases stored with
  | none => exact List.Sublist.slnil
  | some set =>
      rw [find, Option.filter_some]
      split
      · exact List.Sublist.refl _
      · exact List.nil_sublist _

theorem remaining_recent {now : Nat} {entry : String × Nat}
    (member : entry ∈ entries (remaining stored now)) : (now : Int) < entry.2 + 60000 := by
  have window : (windowMs : Int) = 60000 := rfl
  rw [remaining, members_zremrangebyscore, window] at member
  have young := (List.mem_filter.mp member).2
  simp only [not_le, decide_eq_true_eq] at young
  omega

theorem remaining_all {now : Nat} (alive : find now stored = stored)
    (young : ∀ entry ∈ entries stored, (now : Int) < entry.2 + 60000) :
    entries (remaining stored now) = entries stored := by
  have window : (windowMs : Int) = 60000 := rfl
  rw [remaining, members_zremrangebyscore, alive, window, List.filter_eq_self]
  intro entry member
  have recent := young entry member
  simp only [not_le, decide_eq_true_eq]
  omega

theorem oldestScore_iff {oldest : Nat} : oldestScore stored = some oldest ↔
    (∃ entry ∈ entries stored, entry.2 = oldest) ∧ ∀ entry ∈ entries stored, oldest ≤ entry.2 := by
  rw [oldestScore, List.min?_eq_some_iff, List.mem_map, List.forall_mem_map]

theorem oldestScore_some (filled : 0 < zcard stored) : ∃ oldest, oldestScore stored = some oldest := by
  refine Option.ne_none_iff_exists'.mp fun missing => ?_
  have empty := List.map_eq_nil_iff.mp (List.min?_eq_none_iff.mp missing)
  rw [zcard, empty] at filled
  exact absurd filled (lt_irrefl 0)

/-- The window of a reachable state: it is never over the limit, and its entries are old. -/
structure Bounded (limit : Nat) (stored : Option SortedSet) (last : Nat) : Prop where
  room : (entries stored).length ≤ limit
  past : ∀ entry ∈ entries stored, entry.2 ≤ last

theorem length_zadd (score : Nat) (member : String) :
    (entries (zadd stored score member)).length ≤ (entries stored).length + 1 := by
  cases stored with
  | none => exact le_rfl
  | some set =>
      simp only [zadd, entries, Option.elim, List.length_append, List.length_singleton]
      exact Nat.succ_le_succ (List.length_filter_le _ _)

theorem mem_zadd {score : Nat} {member : String} {entry : String × Nat}
    (listed : entry ∈ entries (zadd stored score member)) :
    entry ∈ entries stored ∨ entry = (member, score) := by
  cases stored with
  | none => exact .inr (List.mem_singleton.mp listed)
  | some set =>
      simp only [zadd, entries, Option.elim, List.mem_append, List.mem_singleton] at listed
      exact listed.imp (fun kept => (List.mem_filter.mp kept).1) fun new => new

theorem bounded_next (bounded : Bounded limit stored last) (later : last ≤ call.now) :
    Bounded limit (consumeLimit limit stored call).1 call.now := by
  have kept := remaining_sublist stored call.now
  have past : ∀ entry ∈ entries (remaining stored call.now), entry.2 ≤ call.now :=
    fun entry member => (bounded.past entry (kept.subset member)).trans later
  by_cases full : limit ≤ zcard (remaining stored call.now)
  · rw [consumeLimit_rejected full]
    refine ⟨?_, ?_⟩
    · rw [members_expire]
      exact kept.length_le.trans bounded.room
    · rw [members_expire]
      exact past
  · have admitted : (consumeLimit limit stored call).1 =
        expire (zadd (remaining stored call.now) call.now call.member) call.now windowExpirySeconds := by
      simp only [consumeLimit, rateLimitScript, remaining] at full ⊢
      rw [if_neg full]
    rw [admitted]
    refine ⟨?_, ?_⟩
    · rw [members_expire]
      exact (length_zadd _ _).trans (not_le.mp full)
    · rw [members_expire]
      intro entry member
      rcases mem_zadd member with old | rfl
      · exact past entry old
      · exact le_rfl

theorem serveFrom_append (limit : Nat) (stored : Option SortedSet) (calls : List RateLimitCall)
    (call : RateLimitCall) : serveFrom limit stored (calls ++ [call]) =
      serve limit (serveFrom limit stored calls) call := by
  simp [serveFrom]

theorem bounded_served (limit : Nat) {calls : List RateLimitCall}
    (ordered : (calls ++ [call]).Pairwise fun first second => first.now ≤ second.now) :
    ∃ last ≤ call.now, Bounded limit (serveAll limit calls).1 last := by
  induction calls using List.reverseRecOn generalizing call with
  | nil => exact ⟨0, Nat.zero_le _, Nat.zero_le _, fun entry member => by cases member⟩
  | append_singleton calls latest ih =>
      obtain ⟨before, -, across⟩ := List.pairwise_append.mp ordered
      obtain ⟨last, later, bounded⟩ := ih before
      have step : serveAll limit (calls ++ [latest]) = serve limit (serveAll limit calls) latest := by
        simp [serveAll]
      refine ⟨latest.now, across latest (by simp) call (by simp), ?_⟩
      rw [step]
      exact bounded_next bounded later

/-- A rejected call neither prunes nor adds: a window with room would have let it through. -/
theorem entries_rejected (room : (entries stored).length ≤ limit)
    (rejected : (consumeLimit limit stored call).2.allowed = false) :
    entries (consumeLimit limit stored call).1 = entries (remaining stored call.now) ∧
      entries (remaining stored call.now) = entries stored := by
  have full : limit ≤ zcard (remaining stored call.now) := by
    rw [← not_lt, ← consumeLimit_allowed, rejected]
    exact Bool.false_ne_true
  rw [consumeLimit_rejected full, members_expire]
  exact ⟨rfl, (remaining_sublist stored call.now).eq_of_length_le (room.trans full)⟩

theorem entries_between (room : (entries stored).length ≤ limit) (between : List RateLimitCall)
    (rejected : ∀ one ∈ (serveFrom limit stored between).2, one.result.allowed = false) :
    entries (serveFrom limit stored between).1 = entries stored := by
  induction between using List.reverseRecOn with
  | nil => rfl
  | append_singleton between latest ih =>
      simp only [serveFrom_append, serve] at rejected ⊢
      have earlier := ih fun one member => rejected one (List.mem_append_left _ member)
      have last := rejected _ (List.mem_append_right _ (List.mem_singleton_self _))
      obtain ⟨next, kept⟩ := entries_rejected (earlier ▸ room) last
      rw [next, kept, earlier]

theorem suffices_once (room : (entries stored).length ≤ limit) {now seconds oldest : Nat}
    (first : oldestScore stored = some oldest) (long : oldest + 60000 ≤ now + 1000 * seconds) :
    Suffices limit stored now seconds := by
  intro between later ordered after due rejected
  have kept := entries_between room between rejected
  obtain ⟨⟨entry, listed, rfl⟩, -⟩ := oldestScore_iff.mp first
  rw [consumeLimit_allowed]
  have shorter := remaining_sublist (serveFrom limit stored between).1 later.now
  rw [kept] at shorter
  refine lt_of_lt_of_le (lt_of_le_of_ne shorter.length_le fun same => ?_) room
  have listed := (shorter.eq_of_length same).symm ▸ listed
  have recent := remaining_recent listed
  omega

theorem suffices_only {now seconds oldest : Nat} (full : limit ≤ (entries stored).length)
    (stamped : ∀ set, stored = some set → set.expiresAt = some (now + 60000)) (short : seconds ≤ 59)
    (first : oldestScore stored = some oldest) (early : now + 1000 * seconds < oldest + 60000) :
    ¬Suffices limit stored now seconds := by
  intro enough
  have admitted := enough [] ⟨now + 1000 * seconds, ""⟩ (List.pairwise_singleton _ _)
    (fun one member => by cases member) le_rfl fun one member => by cases member
  have alive : find (now + 1000 * seconds) stored = stored :=
    find_alive fun set present => ⟨_, stamped set present, by omega⟩
  have young : ∀ entry ∈ entries stored, ((now + 1000 * seconds : Nat) : Int) < entry.2 + 60000 := by
    intro entry member
    have least := (oldestScore_iff.mp first).2 entry member
    omega
  rw [consumeLimit_allowed] at admitted
  refine absurd admitted (not_lt.mpr ?_)
  exact full.trans (congrArg List.length (remaining_all alive young)).ge

/-- A rejected call is told the least number of seconds that is enough, and it
is between one and sixty. -/
theorem retry_after_least (limit : Nat) (positive : 1 ≤ limit) (calls : List RateLimitCall)
    (call : RateLimitCall)
    (ordered : (calls ++ [call]).Pairwise fun first second => first.now ≤ second.now)
    (rejected : (consumeLimit limit (serveAll limit calls).1 call).2.allowed = false) :
    let next := consumeLimit limit (serveAll limit calls).1 call
    1 ≤ next.2.retryAfterSeconds ∧ next.2.retryAfterSeconds ≤ 60 ∧
      ∃ seconds : Nat, (seconds : Int) = next.2.retryAfterSeconds ∧
        IsLeast {seconds | Suffices limit next.1 call.now seconds} seconds := by
  obtain ⟨last, later, bounded⟩ := bounded_served limit ordered
  have full : limit ≤ zcard (remaining (serveAll limit calls).1 call.now) := by
    rw [← not_lt, ← consumeLimit_allowed, rejected]
    exact Bool.false_ne_true
  obtain ⟨oldest, first⟩ := oldestScore_some (positive.trans full)
  obtain ⟨⟨entry, listed, rfl⟩, least⟩ := oldestScore_iff.mp first
  have recent := remaining_recent listed
  have past := (bounded.past entry ((remaining_sublist _ _).subset listed)).trans later
  have answer := consumeLimit_retryAfter full first
  obtain ⟨same, kept⟩ := entries_rejected bounded.room rejected
  have stays : oldestScore (consumeLimit limit (serveAll limit calls).1 call).1 = some entry.2 := by
    rw [oldestScore, same]
    exact first
  have room : (entries (consumeLimit limit (serveAll limit calls).1 call).1).length ≤ limit := by
    rw [same, kept]
    exact bounded.room
  have holds : limit ≤ (entries (consumeLimit limit (serveAll limit calls).1 call).1).length := by
    rw [same]
    exact full
  simp only [answer, ceilSeconds]
  refine ⟨le_max_left _ _, by omega, (max 1 (-(-((entry.2 : Int) + 60000 - call.now) / 1000))).toNat,
    by omega, ?_, ?_⟩
  · exact suffices_once room stays (by omega)
  · intro seconds enough
    by_contra short
    refine suffices_only holds (fun set present => ?_) (by omega) stays (by omega) enough
    rw [consumeLimit_rejected full] at present
    exact expire_some present

theorem retry_after_least_sample :
    let calls : List RateLimitCall := [⟨5, "a"⟩, ⟨1000, "b"⟩]
    let next := consumeLimit 2 (serveAll 2 calls).1 ⟨58005, "c"⟩
    next.2.retryAfterSeconds = 2 ∧
      1 ≤ next.2.retryAfterSeconds ∧ next.2.retryAfterSeconds ≤ 60 ∧
      ∃ seconds : Nat, (seconds : Int) = next.2.retryAfterSeconds ∧
        IsLeast {seconds | Suffices 2 next.1 58005 seconds} seconds :=
  ⟨by decide, retry_after_least 2 (by decide) _ ⟨58005, "c"⟩ (by decide) (by decide)⟩

end Answers

end Keyzori
