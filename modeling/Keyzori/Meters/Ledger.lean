import Keyzori.Meters.Service
import Mathlib.Algebra.Ring.Int.Defs
import Mathlib.Data.List.Chain
import Mathlib.Data.List.Nodup

namespace Keyzori

open LockedTransactions MeterRegion

/-- The entries of one meter in insertion order against its current balance. -/
structure LedgerLaw (entries : List UsageLedgerEntry) (balance : Int) : Prop where
  created : ∃ first rest, entries = first :: rest ∧ first.kind = .create ∧
    first.balanceBefore = 0 ∧ ∀ entry ∈ rest, entry.kind ≠ .create
  arithmetic : ∀ entry ∈ entries, entry.balanceAfter = entry.balanceBefore + entry.delta
  linked : entries.IsChain fun previous next => next.balanceBefore = previous.balanceAfter
  current : entries.getLast?.map UsageLedgerEntry.balanceAfter = some balance

theorem ledgerLaw_open (entry : UsageLedgerEntry) (kind : entry.kind = .create)
    (before : entry.balanceBefore = 0)
    (arithmetic : entry.balanceAfter = entry.balanceBefore + entry.delta) :
    LedgerLaw [entry] entry.balanceAfter where
  created := ⟨entry, [], rfl, kind, before, by simp⟩
  arithmetic := by simpa using arithmetic
  linked := .singleton entry
  current := rfl

theorem ledgerLaw_append {entries : List UsageLedgerEntry} {balance : Int}
    (law : LedgerLaw entries balance) (entry : UsageLedgerEntry)
    (kind : entry.kind ≠ .create) (before : entry.balanceBefore = balance)
    (arithmetic : entry.balanceAfter = entry.balanceBefore + entry.delta) :
    LedgerLaw (entries ++ [entry]) entry.balanceAfter where
  created := by
    obtain ⟨first, rest, rfl, firstKind, firstBefore, others⟩ := law.created
    refine ⟨first, rest ++ [entry], rfl, firstKind, firstBefore, ?_⟩
    intro other member
    rcases List.mem_append.mp member with member | member
    · exact others other member
    · rw [List.mem_singleton.mp member]
      exact kind
  arithmetic := by
    intro other member
    rcases List.mem_append.mp member with member | member
    · exact law.arithmetic other member
    · rw [List.mem_singleton.mp member]
      exact arithmetic
  linked := by
    refine List.IsChain.append law.linked (.singleton entry) ?_
    intro last isLast first isFirst
    have same : first = entry := by simpa using isFirst.symm
    have balanceAfter : last.balanceAfter = balance := by
      have current := law.current
      rw [Option.mem_def.mp isLast] at current
      simpa using current
    rw [same, before, balanceAfter]
  current := by simp

/-- The balance is the sum of all deltas: the chain telescopes from zero. -/
theorem ledgerLaw_total {entries : List UsageLedgerEntry} {balance : Int}
    (law : LedgerLaw entries balance) :
    (entries.map UsageLedgerEntry.delta).sum = balance := by
  have telescope : ∀ (first : UsageLedgerEntry) (rest : List UsageLedgerEntry),
      (∀ entry ∈ first :: rest, entry.balanceAfter = entry.balanceBefore + entry.delta) →
      (first :: rest).IsChain (fun previous next => next.balanceBefore = previous.balanceAfter) →
      ∀ last, (first :: rest).getLast? = some last →
        ((first :: rest).map UsageLedgerEntry.delta).sum = last.balanceAfter - first.balanceBefore := by
    intro first rest
    induction rest generalizing first with
    | nil =>
        intro arithmetic _ last isLast
        have same : first = last := by simpa using isLast
        have step := arithmetic first (by simp)
        subst same
        simp only [List.map_cons, List.map_nil, List.sum_cons, List.sum_nil]
        omega
    | cons second rest ih =>
        intro arithmetic linked last isLast
        have step := arithmetic first (by simp)
        rw [List.isChain_cons_cons] at linked
        have tail := ih second (fun entry member => arithmetic entry (List.mem_cons_of_mem _ member))
          linked.2 last (by simpa using isLast)
        rw [List.map_cons, List.sum_cons, tail]
        have joined := linked.1
        omega
  obtain ⟨first, rest, rfl, _, before, _⟩ := law.created
  obtain ⟨last, isLast, value⟩ := Option.map_eq_some_iff.mp law.current
  rw [telescope first rest law.arithmetic law.linked last isLast, before, value]
  omega

namespace MeterTable

def entriesOf (table : MeterTable) (meterId : String) : List UsageLedgerEntry :=
  table.ledger.filter fun entry => entry.meterId = meterId

def post (table : MeterTable) (meter : LicenseMeter) (entry : UsageLedgerEntry) : MeterTable where
  meters := table.meters.map fun stored => if stored.id = meter.id then meter else stored
  ledger := table.ledger ++ [entry]

/-- Every meter of the table is accounted for by its ledger rows. -/
structure Accounted (table : MeterTable) : Prop where
  ids : (table.meters.map LicenseMeter.id).Nodup
  names : (table.meters.map LicenseMeter.name).Nodup
  entries : (table.ledger.map UsageLedgerEntry.id).Nodup
  events : (table.ledger.map UsageLedgerEntry.eventId).Nodup
  owned : ∀ entry ∈ table.ledger, ∃ meter ∈ table.meters, meter.id = entry.meterId
  law : ∀ meter ∈ table.meters, LedgerLaw (table.entriesOf meter.id) meter.balance

theorem accounted_empty : Accounted ⟨[], []⟩ where
  ids := .nil
  names := .nil
  entries := .nil
  events := .nil
  owned := by simp
  law := by simp

theorem meter_unique {table : MeterTable} (accounted : table.Accounted)
    {first second : LicenseMeter} (firstMember : first ∈ table.meters)
    (secondMember : second ∈ table.meters) (same : first.id = second.id) : first = second :=
  List.inj_on_of_nodup_map accounted.ids firstMember secondMember same

structure Posts (meter changed : LicenseMeter) (entry : UsageLedgerEntry) : Prop where
  id : changed.id = meter.id
  name : changed.name = meter.name
  meterId : entry.meterId = meter.id
  kind : entry.kind ≠ .create
  before : entry.balanceBefore = meter.balance
  after : entry.balanceAfter = entry.balanceBefore + entry.delta
  balance : changed.balance = entry.balanceAfter

theorem map_post_id {meters : List LicenseMeter} {meter changed : LicenseMeter}
    (member : ∀ stored ∈ meters, stored.id = changed.id → stored = meter)
    {β : Type} (field : LicenseMeter → β) (same : field changed = field meter) :
    (meters.map fun stored => if stored.id = changed.id then changed else stored).map field =
      meters.map field := by
  rw [List.map_map]
  apply List.map_congr_left
  intro stored present
  simp only [Function.comp_apply]
  split
  · next matched => rw [same, member stored present matched]
  · rfl

theorem append_nodup {α β : Type} {rows : List α} {field : α → β} (distinct : (rows.map field).Nodup)
    {row : α} (fresh : ∀ stored ∈ rows, field stored ≠ field row) :
    ((rows ++ [row]).map field).Nodup := by
  rw [List.map_append]
  refine List.Nodup.append distinct (List.nodup_singleton _) ?_
  simpa [List.disjoint_singleton] using fresh

theorem accounted_post {table : MeterTable} (accounted : table.Accounted)
    {meter changed : LicenseMeter} {entry : UsageLedgerEntry} (member : meter ∈ table.meters)
    (posts : Posts meter changed entry) (freshRow : ∀ stored ∈ table.ledger, stored.id ≠ entry.id)
    (fresh : ∀ stored ∈ table.ledger, stored.eventId ≠ entry.eventId) :
    (table.post changed entry).Accounted := by
  have only : ∀ stored ∈ table.meters, stored.id = changed.id → stored = meter := by
    intro stored present matched
    exact meter_unique accounted present member (matched.trans posts.id)
  constructor
  · simpa only [post, map_post_id only LicenseMeter.id posts.id] using accounted.ids
  · simpa only [post, map_post_id only LicenseMeter.name posts.name] using accounted.names
  · exact append_nodup accounted.entries freshRow
  · exact append_nodup accounted.events fresh
  · have ids : (table.post changed entry).meters.map LicenseMeter.id =
        table.meters.map LicenseMeter.id := map_post_id only LicenseMeter.id posts.id
    have present : ∀ id, (∃ stored ∈ table.meters, stored.id = id) →
        ∃ stored ∈ (table.post changed entry).meters, stored.id = id := by
      intro id found
      rw [← List.mem_map, ids]
      exact List.mem_map.mpr found
    intro other otherMember
    rcases List.mem_append.mp otherMember with old | new
    · exact present _ (accounted.owned other old)
    · rw [List.mem_singleton.mp new]
      exact present _ ⟨meter, member, posts.meterId.symm⟩
  · intro stored present
    obtain ⟨original, originalMember, rfl⟩ := List.mem_map.mp present
    simp only [entriesOf, post, List.filter_append]
    split
    · next matched =>
      have law := accounted.law meter member
      have selected : [entry].filter (fun other => other.meterId = changed.id) = [entry] := by
        simp [posts.meterId, posts.id]
      rw [selected, posts.balance, posts.id]
      exact ledgerLaw_append law entry posts.kind posts.before posts.after
    · next distinct =>
      have skipped : [entry].filter (fun other => other.meterId = original.id) = [] := by
        simp only [List.filter_eq_nil_iff, List.mem_singleton, decide_eq_true_eq, forall_eq]
        intro matched
        exact distinct (matched.symm.trans (posts.meterId.trans posts.id.symm))
      rw [skipped, List.append_nil]
      exact accounted.law original originalMember

structure Opens (meter : LicenseMeter) (entry : UsageLedgerEntry) : Prop where
  meterId : entry.meterId = meter.id
  kind : entry.kind = .create
  before : entry.balanceBefore = 0
  delta : entry.delta = meter.balance
  after : entry.balanceAfter = meter.balance

theorem accounted_open {table : MeterTable} (accounted : table.Accounted)
    {meter : LicenseMeter} {entry : UsageLedgerEntry} (opens : Opens meter entry)
    (freshId : ∀ stored ∈ table.meters, stored.id ≠ meter.id)
    (freshName : ∀ stored ∈ table.meters, stored.name ≠ meter.name)
    (freshRow : ∀ stored ∈ table.ledger, stored.id ≠ entry.id)
    (freshEvent : ∀ stored ∈ table.ledger, stored.eventId ≠ entry.eventId) :
    Accounted ⟨table.meters ++ [meter], table.ledger ++ [entry]⟩ := by
  have unowned : ∀ stored ∈ table.ledger, stored.meterId ≠ meter.id := by
    intro stored present matched
    obtain ⟨owner, ownerMember, owns⟩ := accounted.owned stored present
    exact freshId owner ownerMember (owns.trans matched)
  constructor
  · exact append_nodup accounted.ids freshId
  · exact append_nodup accounted.names freshName
  · exact append_nodup accounted.entries freshRow
  · exact append_nodup accounted.events freshEvent
  · intro other member
    rcases List.mem_append.mp member with old | new
    · obtain ⟨owner, ownerMember, owns⟩ := accounted.owned other old
      exact ⟨owner, List.mem_append_left _ ownerMember, owns⟩
    · rw [List.mem_singleton.mp new]
      exact ⟨meter, by simp, opens.meterId.symm⟩
  · intro stored member
    simp only [entriesOf, List.filter_append]
    rcases List.mem_append.mp member with old | new
    · have skipped : [entry].filter (fun other => other.meterId = stored.id) = [] := by
        simp only [List.filter_eq_nil_iff, List.mem_singleton, decide_eq_true_eq, forall_eq]
        intro matched
        exact freshId stored old (matched.symm.trans opens.meterId)
      rw [skipped, List.append_nil]
      exact accounted.law stored old
    · obtain rfl := List.mem_singleton.mp new
      have none : table.ledger.filter (fun other => other.meterId = stored.id) = [] := by
        simpa [List.filter_eq_nil_iff] using unowned
      have selected : [entry].filter (fun other => other.meterId = stored.id) = [entry] := by
        simp [opens.meterId]
      rw [none, selected, List.nil_append, ← opens.after]
      apply ledgerLaw_open entry opens.kind opens.before
      rw [opens.after, opens.before, opens.delta]
      omega

theorem accounted_open_all {table : MeterTable} (accounted : table.Accounted)
    (rows : List (LicenseMeter × UsageLedgerEntry)) (opens : ∀ row ∈ rows, Opens row.1 row.2)
    (ids : ((table.meters ++ rows.map Prod.fst).map LicenseMeter.id).Nodup)
    (names : ((table.meters ++ rows.map Prod.fst).map LicenseMeter.name).Nodup)
    (entries : ((table.ledger ++ rows.map Prod.snd).map UsageLedgerEntry.id).Nodup)
    (events : ((table.ledger ++ rows.map Prod.snd).map UsageLedgerEntry.eventId).Nodup) :
    Accounted ⟨table.meters ++ rows.map Prod.fst, table.ledger ++ rows.map Prod.snd⟩ := by
  induction rows generalizing table with
  | nil => simpa using accounted
  | cons row rows ih =>
      have fresh : ∀ {α β : Type} (field : α → β) (old new : List α) (item : α),
          ((old ++ item :: new).map field).Nodup → ∀ stored ∈ old, field stored ≠ field item := by
        intro α β field old new item nodup stored present
        rw [List.map_append] at nodup
        exact (List.nodup_append.mp nodup).2.2 _ (List.mem_map_of_mem present) _ (by simp)
      have first := accounted_open accounted (opens row (by simp))
        (fresh _ _ _ _ ids) (fresh _ _ _ _ names) (fresh _ _ _ _ entries) (fresh _ _ _ _ events)
      have all := ih first (fun other member => opens other (List.mem_cons_of_mem _ member))
        (by simpa using ids) (by simpa using names) (by simpa using entries) (by simpa using events)
      simpa using all

end MeterTable

end Keyzori
