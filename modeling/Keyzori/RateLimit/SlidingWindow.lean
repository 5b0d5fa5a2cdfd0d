import Mathlib.Data.List.Sort
import Mathlib.Data.Nat.Digits.Defs
import Mathlib.Data.List.MinMax

/-! The sliding window rate limiter. Redis keeps one sorted set for each key,
whose expiry the script moves with every call. Time is the clock of the callers,
in milliseconds. -/

namespace Keyzori

/-- A sorted set with its expiry. Redis drops a set that becomes empty. -/
structure SortedSet where
  members : List (String × Nat)
  expiresAt : Option Nat
  deriving DecidableEq, Repr

structure RateLimitResult where
  allowed : Bool
  retryAfterSeconds : Int
  deriving DecidableEq, Repr

def windowMs : Nat := 60000

def windowExpirySeconds : Nat := 60

namespace SortedSet

/-- The set a command finds under the key; it is gone once its expiry has passed. -/
def find (now : Nat) (stored : Option SortedSet) : Option SortedSet :=
  stored.filter fun set => set.expiresAt.all fun expiresAt => now ≤ expiresAt

def entries (stored : Option SortedSet) : List (String × Nat) := stored.elim [] members

def zremrangebyscore (stored : Option SortedSet) (maximum : Int) : Option SortedSet :=
  stored.bind fun set =>
    let members := set.members.filter fun entry => ¬(entry.2 : Int) ≤ maximum
    if members = [] then none else some { set with members }

def zcard (stored : Option SortedSet) : Nat := (entries stored).length

def oldestScore (stored : Option SortedSet) : Option Nat := ((entries stored).map Prod.snd).min?

/-- `ZADD`: a member that is there gets the new score. -/
def zadd (stored : Option SortedSet) (score : Nat) (member : String) : Option SortedSet :=
  match stored with
  | none => some ⟨[(member, score)], none⟩
  | some set => some { set with
      members := set.members.filter (fun entry => entry.1 ≠ member) ++ [(member, score)] }

def expire (stored : Option SortedSet) (now seconds : Nat) : Option SortedSet :=
  stored.map fun set => { set with expiresAt := some (now + seconds * 1000) }

end SortedSet

open SortedSet

def ceilSeconds (milliseconds : Int) : Int := -(-milliseconds / 1000)

/-- `RATE_LIMIT_SCRIPT`, with its first element as a truth value. -/
def rateLimitScript (stored : Option SortedSet) (minimum : Int) (now : Nat) (member : String)
    (limit seconds : Nat) : Option SortedSet × RateLimitResult :=
  let stored := zremrangebyscore (find now stored) minimum
  if zcard stored ≥ limit then
    let retryAfter := match oldestScore stored with
      | some oldest => max 1 (ceilSeconds (oldest + 60000 - now))
      | none => 1
    (expire stored now seconds, ⟨false, retryAfter⟩)
  else (expire (zadd stored now member) now seconds, ⟨true, 0⟩)

/-- A call with what it reads from outside: `Date.now()` and `crypto.randomUUID()`. -/
structure RateLimitCall where
  now : Nat
  uuid : String
  deriving DecidableEq, Repr

def RateLimitCall.member (call : RateLimitCall) : String := Nat.repr call.now ++ ":" ++ call.uuid

def consumeLimit (limit : Nat) (stored : Option SortedSet) (call : RateLimitCall) :
    Option SortedSet × RateLimitResult :=
  let (stored, result) := rateLimitScript stored ((call.now : Int) - windowMs) call.now call.member
    limit windowExpirySeconds
  (stored, ⟨result.allowed, max 0 result.retryAfterSeconds⟩)

structure Served where
  call : RateLimitCall
  result : RateLimitResult
  deriving DecidableEq, Repr

/-- The calls on one key, in the order of their scripts, oldest first. -/
def serve (limit : Nat) (state : Option SortedSet × List Served) (call : RateLimitCall) :
    Option SortedSet × List Served :=
  let (stored, result) := consumeLimit limit state.1 call
  (stored, state.2 ++ [⟨call, result⟩])

def serveAll (limit : Nat) (calls : List RateLimitCall) : Option SortedSet × List Served :=
  calls.foldl (serve limit) (none, [])

def admittedWithin (served : List Served) (time : Int) : List Served :=
  served.filter fun one =>
    one.result.allowed ∧ time - 60000 < one.call.now ∧ (one.call.now : Int) ≤ time

section Members

theorem member_injective {first second : RateLimitCall} (same : first.member = second.member) :
    first.uuid = second.uuid := by
  have digits : ∀ number : Nat, ':' ∉ (Nat.repr number).toList := by
    intro number member
    rw [Nat.toList_repr] at member
    have digit := Nat.isDigit_of_mem_toDigits (by decide) (by decide) member
    exact absurd digit (by decide)
  have texts := congrArg String.toList same
  simp only [RateLimitCall.member, String.toList_append, List.append_assoc] at texts
  have colon : (":" : String).toList = [':'] := rfl
  rw [colon] at texts
  have skips : ∀ number : Nat, ∀ rest : List Char,
      ((Nat.repr number).toList ++ ([':'] ++ rest)).dropWhile (fun char => char ≠ ':') =
        ':' :: rest := by
    intro number rest
    rw [List.dropWhile_append_of_pos]
    · simp
    · intro char member
      have other : char ≠ ':' := fun here => digits number (here ▸ member)
      simp [other]
  have rests := congrArg (List.dropWhile fun char => char ≠ ':') texts
  rw [skips, skips] at rests
  exact String.toList_injective (List.cons_injective rests)

end Members

section Window

variable {limit : Nat} {stored : Option SortedSet} {served : List Served} {call : RateLimitCall}

def Served.entry (one : Served) : String × Nat := (one.call.member, one.call.now)

def admittedAfter (served : List Served) (time : Int) : List Served :=
  served.filter fun one => one.result.allowed ∧ time < one.call.now

/-- After a call at `now` the set holds the admitted calls of its window, and
lives on for as long as one of them counts. -/
structure Tracks (stored : Option SortedSet) (served : List Served) (now : Nat) : Prop where
  members : entries stored = (admittedAfter served ((now : Int) - 60000)).map Served.entry
  expiry : ∀ set, stored = some set → set.expiresAt = some (now + 60000)
  past : ∀ one ∈ served, one.call.now ≤ now

theorem tracks_start : Tracks none [] 0 := by
  refine ⟨rfl, fun set present => ?_, fun one member => ?_⟩
  · cases present
  · cases member

theorem members_zremrangebyscore (maximum : Int) :
    entries (zremrangebyscore stored maximum) =
      (entries stored).filter fun entry => ¬(entry.2 : Int) ≤ maximum := by
  cases stored with
  | none => rfl
  | some set =>
      simp only [zremrangebyscore, Option.bind_some]
      split
      · next empty => exact empty.symm
      · rfl

theorem members_expire (now seconds : Nat) : entries (expire stored now seconds) = entries stored := by
  cases stored <;> rfl

theorem expire_some {now seconds : Nat} {set : SortedSet} (present : expire stored now seconds = some set) :
    set.expiresAt = some (now + seconds * 1000) := by
  obtain ⟨old, -, rfl⟩ := Option.map_eq_some_iff.mp present
  rfl

theorem members_zadd {score : Nat} {member : String}
    (fresh : member ∉ (entries stored).map Prod.fst) :
    entries (zadd stored score member) = entries stored ++ [(member, score)] := by
  cases stored with
  | none => rfl
  | some set =>
      have kept : set.members.filter (fun entry => entry.1 ≠ member) = set.members := by
        rw [List.filter_eq_self]
        intro entry known
        have other : entry.1 ≠ member := fun same => fresh (same ▸ List.mem_map_of_mem known)
        simpa using other
      simp only [zadd, entries, Option.elim, kept]

/-- Neither the expiry nor the removal loses a call that is still in the window. -/
theorem pruned_members {last now : Nat} (tracks : Tracks stored served last) (later : last ≤ now) :
    entries (zremrangebyscore (find now stored) ((now : Int) - windowMs)) =
      (admittedAfter served ((now : Int) - 60000)).map Served.entry := by
  have window : (windowMs : Int) = 60000 := rfl
  rw [members_zremrangebyscore, window]
  by_cases alive : find now stored = stored
  · rw [alive, tracks.members, List.filter_map, admittedAfter, admittedAfter, List.filter_filter]
    congr 1
    refine List.filter_congr fun one _ => ?_
    simp only [Served.entry, Function.comp]
    grind
  · have expired : find now stored = none ∧ last + 60000 < now := by
      cases stored with
      | none => exact absurd rfl alive
      | some set =>
          have stamp := tracks.expiry set rfl
          simp only [find, Option.filter_some, stamp, Option.all_some, decide_eq_true_eq] at alive ⊢
          split
          · next inTime => exact absurd (if_pos inTime) alive
          · next late => exact ⟨rfl, not_le.mp late⟩
    have gone : admittedAfter served ((now : Int) - 60000) = [] := by
      rw [admittedAfter, List.filter_eq_nil_iff]
      intro one member
      have past := tracks.past one member
      have late := expired.2
      simp only [decide_eq_true_eq, not_and]
      omega
    rw [expired.1, gone]
    rfl

theorem serve_tracks (limit : Nat) {last : Nat} (tracks : Tracks stored served last) (later : last ≤ call.now)
    (fresh : call.uuid ∉ served.map fun one => one.call.uuid) :
    let next := serve limit (stored, served) call
    Tracks next.1 next.2 call.now ∧ ∃ result, next.2 = served ++ [⟨call, result⟩] ∧
      (result.allowed = true ↔
        (admittedAfter served ((call.now : Int) - 60000)).length < limit) := by
  have members := pruned_members tracks later
  have counted : zcard (zremrangebyscore (find call.now stored) ((call.now : Int) - windowMs)) =
      (admittedAfter served ((call.now : Int) - 60000)).length := by
    simp only [zcard, members, List.length_map]
  have past : ∀ result : RateLimitResult, ∀ one ∈ served ++ [⟨call, result⟩], one.call.now ≤ call.now := by
    intro result one member
    rcases List.mem_append.mp member with old | new
    · exact (tracks.past one old).trans later
    · rw [List.mem_singleton.mp new]
  have appended : ∀ result : RateLimitResult,
      admittedAfter (served ++ [⟨call, result⟩]) ((call.now : Int) - 60000) =
        admittedAfter served ((call.now : Int) - 60000) ++
          (if result.allowed then [⟨call, result⟩] else []) := by
    intro result
    cases allowed : result.allowed <;> simp [admittedAfter, allowed]
  by_cases full : limit ≤ (admittedAfter served ((call.now : Int) - 60000)).length
  · simp only [serve, consumeLimit, rateLimitScript, counted, ge_iff_le, full, if_true]
    refine ⟨⟨?_, ?_, past _⟩, _, rfl, by simpa using full⟩
    · rw [members_expire, members, appended]
      simp
    · exact fun set present => expire_some present
  · have unused : call.member ∉ (entries (zremrangebyscore (find call.now stored)
        ((call.now : Int) - windowMs))).map Prod.fst := by
      rw [members, List.map_map]
      intro member
      obtain ⟨one, listed, same⟩ := List.mem_map.mp member
      have uuid := member_injective (show one.call.member = call.member from same)
      exact fresh (uuid ▸ List.mem_map_of_mem (List.mem_filter.mp listed).1)
    simp only [serve, consumeLimit, rateLimitScript, counted, ge_iff_le, full, if_false]
    refine ⟨⟨?_, ?_, past _⟩, _, rfl, by simpa using full⟩
    · rw [members_expire, members_zadd unused, members, appended]
      simp [Served.entry]
    · exact fun set present => expire_some present

structure WithinLimit (limit : Nat) (served : List Served) : Prop where
  bounded : ∀ time, (admittedWithin served time).length ≤ limit
  rejected : ∀ before one after, served = before ++ one :: after → one.result.allowed = false →
    (admittedWithin before one.call.now).length = limit ∧
      (admittedWithin served one.call.now).length = limit

theorem within_le_after (served : List Served) (time start : Int) (covers : start ≤ time - 60000) :
    (admittedWithin served time).length ≤ (admittedAfter served start).length := by
  refine List.Sublist.length_le (List.monotone_filter_right served fun one member => ?_)
  simp only [decide_eq_true_eq] at member ⊢
  exact ⟨member.1, by omega⟩

theorem within_eq_after {now : Nat} (past : ∀ one ∈ served, one.call.now ≤ now) :
    admittedWithin served now = admittedAfter served ((now : Int) - 60000) := by
  refine List.filter_congr fun one member => ?_
  have old := past one member
  simp only [decide_eq_decide]
  constructor
  · exact fun holds => ⟨holds.1, holds.2.1⟩
  · exact fun holds => ⟨holds.1, holds.2, by omega⟩

theorem window_append (served more : List Served) (time : Int) :
    admittedWithin (served ++ more) time = admittedWithin served time ++ admittedWithin more time :=
  List.filter_append _ _

theorem bounded_append (within : WithinLimit limit served) {result : RateLimitResult}
    (room : result.allowed = true → (admittedAfter served ((call.now : Int) - 60000)).length < limit)
    (time : Int) : (admittedWithin (served ++ [⟨call, result⟩]) time).length ≤ limit := by
  rw [window_append, List.length_append]
  by_cases counts : result.allowed = true ∧ time - 60000 < call.now ∧ (call.now : Int) ≤ time
  · have before : (admittedWithin served time).length < limit := by
      calc
        _ ≤ (admittedAfter served ((call.now : Int) - 60000)).length :=
          within_le_after served time _ (by omega)
        _ < limit := room counts.1
    have one : (admittedWithin [⟨call, result⟩] time).length ≤ 1 := List.length_filter_le _ _
    omega
  · have none : admittedWithin [⟨call, result⟩] time = [] :=
      List.filter_eq_nil_iff.mpr fun one member => by
        rw [List.mem_singleton.mp member]
        simpa using counts
    rw [none]
    exact within.bounded time

theorem serve_within {last : Nat} (tracks : Tracks stored served last) (later : last ≤ call.now)
    (fresh : call.uuid ∉ served.map fun one => one.call.uuid) (within : WithinLimit limit served) :
    WithinLimit limit (serve limit (stored, served) call).2 := by
  obtain ⟨-, result, appended, admitted⟩ := serve_tracks limit tracks later fresh
  have past : ∀ one ∈ served, one.call.now ≤ call.now := fun one member =>
    (tracks.past one member).trans later
  have bounded := bounded_append within (fun allowed => admitted.mp allowed)
  rw [appended]
  refine ⟨bounded, ?_⟩
  -- A rejection fills the window for good: later calls can only keep it full.
  have full : ∀ before one after, served ++ [⟨call, result⟩] = before ++ one :: after →
      (admittedWithin before one.call.now).length = limit →
        (admittedWithin (served ++ [⟨call, result⟩]) one.call.now).length = limit := by
    intro before one after split exact
    refine le_antisymm (bounded _) ?_
    rw [split, window_append, List.length_append]
    omega
  intro before one after split rejected
  have earlier : (admittedWithin before one.call.now).length = limit := by
    rcases List.eq_nil_or_concat after with rfl | ⟨rest, last, rfl⟩
    · obtain ⟨rfl, same⟩ := List.append_inj' split rfl
      obtain rfl := List.singleton_inj.mp same
      refine le_antisymm (within.bounded _) ?_
      rw [within_eq_after past]
      by_contra less
      have allowed := admitted.mpr (not_le.mp less)
      rw [rejected] at allowed
      cases allowed
    · have inner : served = before ++ one :: rest := by
        have whole : served ++ [⟨call, result⟩] = (before ++ one :: rest) ++ [last] := by
          simpa using split
        exact (List.append_inj' whole rfl).1
      exact (within.rejected before one rest inner rejected).1
  exact ⟨earlier, full before one after split earlier⟩

theorem serveAll_within (limit : Nat) (calls : List RateLimitCall)
    (ordered : calls.Pairwise fun first second => first.now ≤ second.now)
    (distinct : (calls.map RateLimitCall.uuid).Nodup) :
    WithinLimit limit (serveAll limit calls).2 ∧
      (serveAll limit calls).2.map Served.call = calls ∧
      ∃ last, Tracks (serveAll limit calls).1 (serveAll limit calls).2 last ∧
        ∀ call, (∀ one ∈ calls, one.now ≤ call) → last ≤ call := by
  induction calls using List.reverseRecOn with
  | nil =>
      refine ⟨⟨fun time => Nat.zero_le _, ?_⟩, rfl, 0, tracks_start, fun call _ => Nat.zero_le _⟩
      intro before one after split
      cases before <;> cases split
  | append_singleton calls call ih =>
      rw [List.pairwise_append] at ordered
      rw [List.map_append, List.nodup_append] at distinct
      obtain ⟨within, same, last, tracks, reached⟩ := ih ordered.1 distinct.1
      have later : last ≤ call.now := reached call.now fun one member => ordered.2.2 one member call (by simp)
      have fresh : call.uuid ∉ (serveAll limit calls).2.map fun one => one.call.uuid := by
        intro member
        have listed : call.uuid ∈ ((serveAll limit calls).2.map Served.call).map RateLimitCall.uuid := by
          simpa using member
        rw [same] at listed
        exact distinct.2.2 call.uuid listed call.uuid (by simp) rfl
      have step : serveAll limit (calls ++ [call]) = serve limit (serveAll limit calls) call := by
        simp [serveAll]
      rw [step]
      obtain ⟨next, result, appended, -⟩ := serve_tracks limit tracks later fresh
      refine ⟨serve_within tracks later fresh within, ?_, call.now, next, ?_⟩
      · refine (congrArg (List.map Served.call) appended).trans ?_
        simp [same]
      · exact fun time all => all call (by simp)

/-- In every window of a minute at most `limit` calls are admitted, and a call
is rejected only when the window that ends with it already holds that many. -/
theorem sliding_window_bound (limit : Nat) (calls : List RateLimitCall)
    (ordered : calls.Pairwise fun first second => first.now ≤ second.now)
    (distinct : (calls.map RateLimitCall.uuid).Nodup) :
    (serveAll limit calls).2.map Served.call = calls ∧
      (∀ time : Int, (admittedWithin (serveAll limit calls).2 time).length ≤ limit) ∧
      ∀ before one after, (serveAll limit calls).2 = before ++ one :: after →
        one.result.allowed = false →
          (admittedWithin before one.call.now).length = limit ∧
            (admittedWithin (serveAll limit calls).2 one.call.now).length = limit := by
  obtain ⟨within, same, -⟩ := serveAll_within limit calls ordered distinct
  exact ⟨same, within.bounded, within.rejected⟩

theorem sliding_window_bound_sample :
    let calls : List RateLimitCall := [⟨5, "a"⟩, ⟨5, "b"⟩, ⟨60004, "c"⟩, ⟨60005, "d"⟩]
    (serveAll 2 calls).2.map (fun one => one.result.allowed) = [true, true, false, true] ∧
      (serveAll 2 calls).2.map Served.call = calls ∧
      (∀ time : Int, (admittedWithin (serveAll 2 calls).2 time).length ≤ 2) ∧
      ∀ before one after, (serveAll 2 calls).2 = before ++ one :: after →
        one.result.allowed = false →
          (admittedWithin before one.call.now).length = 2 ∧
            (admittedWithin (serveAll 2 calls).2 one.call.now).length = 2 :=
  ⟨by decide, sliding_window_bound 2 _ (by decide) (by decide)⟩

end Window

end Keyzori
