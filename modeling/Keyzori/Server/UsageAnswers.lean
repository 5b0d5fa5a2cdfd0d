import Keyzori.Server.Fencing
import Keyzori.Server.Ledgers

namespace Keyzori

open Interleaving MeterRegion

section Answers

variable {α β : Type} {trace : ServerTrace}

/-- What holds of the value and the trace of a program, if it returns one. -/
def Answers (prog : Server α) (trace : ServerTrace) (post : α → ServerTrace → Prop) : Prop :=
  prog.wp (fun _ _ => True) trace fun result after => ∀ value, result = .ok value → post value after

variable {post : β → ServerTrace → Prop}

theorem answers_bind {prog : Server α} {rest : α → Server β} (middle : α → ServerTrace → Prop)
    (first : Answers prog trace middle)
    (second : ∀ value after, middle value after → Answers (rest value) after post) :
    Answers (prog >>= rest) trace post := by
  refine Prog.wp_bind _ first (fun value after held => second value after (held value rfl)) ?_
  intro error after _ value same
  cases same

theorem answers_pure {value : β} (holds : post value trace) : Answers (pure value) trace post := by
  intro other same
  cases same
  exact holds

theorem answers_throw {error : Failure} : Answers (throw error) trace post := by
  intro value same
  cases same

theorem answers_perform {act : Act} {post : act.Val → ServerTrace → Prop}
    (holds : ∀ value, post value (trace ++ [⟨act, .ok value⟩])) : Answers (perform act) trace post := by
  refine ⟨trivial, fun result value same => ?_⟩
  cases same
  exact holds value

theorem answers_act {act : Act} {rest : act.Val → Server β}
    (second : ∀ value, Answers (rest value) (trace ++ [⟨act, .ok value⟩]) post) :
    Answers (perform act >>= rest) trace post :=
  answers_bind (fun value after => after = trace ++ [⟨act, .ok value⟩]) (answers_perform fun _ => rfl)
    fun value _ same => same ▸ second value

theorem answers_except {result : Except Failure α} {rest : α → Server β}
    (second : ∀ value, result = .ok value → Answers (rest value) trace post) :
    Answers (ofExcept result >>= rest) trace post := by
  refine answers_bind (fun value after => result = .ok value ∧ after = trace) ?_ ?_
  · exact fun value same => ⟨same, rfl⟩
  · rintro value _ ⟨same, rfl⟩
    exact second value same

theorem answers_domain {result : Except DomainError α} {rest : α → Server β}
    (second : ∀ value, result = .ok value → Answers (rest value) trace post) :
    Answers (ofExcept (result.mapError Failure.domain) >>= rest) trace post := by
  cases result with
  | ok value => exact second value rfl
  | error error => exact answers_throw

theorem answers_rethrow {prog : Server β} {handler : Failure → Server β} (first : Answers prog trace post)
    (thrown : ∀ error after, Answers (handler error) after fun _ _ => False) :
    Answers (tryCatch prog handler) trace post := by
  refine Prog.wp_tryCatch _ first (fun _ _ held => held) fun error after _ => ?_
  exact Prog.wp_mono (thrown error after) fun _ _ none value same => (none value same).elim

theorem answers_orRollback {prog : Server β} (first : Answers prog trace post) :
    Answers (orRollback prog) trace post :=
  answers_rethrow first fun _ _ => answers_act fun _ => answers_throw

theorem answers_any {prog : Server α} : Answers prog trace fun _ after => trace <+: after :=
  Prog.wp_any fun _ deeds _ _ => ⟨deeds, rfl⟩

theorem answers_grow {prog : Server β} (holds : Answers prog trace post) :
    Answers prog trace fun value after => post value after ∧ trace <+: after :=
  Prog.wp_mono (Prog.wp_grows holds) fun _ _ both value same => ⟨both.1 value same, both.2⟩

end Answers

section Usage

variable {host : Host} {trace : ServerTrace} {id : LicenseId} {sessionToken : String}

def Spent (host : Host) (id : LicenseId) (request : UsageRequest) (answer : ConsumeUsageResult)
    (trace : ServerTrace) : Prop :=
  ∃ before region written now result outcome after,
    trace = before ++ ⟨.commit id none (written.map Write.meters).toList, .ok outcome⟩ :: after ∧
      Under before (.meter id) (.query fun tables => tables.meters id) region ∧
      (consumeMeter id request.meter request.units (host.hashUsageEventId request.eventId) now).run region =
        .ok (written, result) ∧
      consumeResponse request result = .ok answer

def Resolved (sessionToken : String) (license : License) (trace : ServerTrace) : Prop :=
  ∃ bindingHash resolved id first,
    Took trace (.refreshSession sessionToken bindingHash) (some resolved) ∧
      LicenseService.sessionLicenseId resolved = some id ∧
      Took trace (.findLicense id) (some first) ∧ Took trace (.findLicense first.id) (some license)

theorem took_prefix {act : Act} {value : act.Val} {after : ServerTrace} (grown : trace <+: after)
    (took : Took trace act value) : Took after act value :=
  grown.subset took

theorem checkSessionLicense_answers {license : LicenseWithAllowlists} {resolved : ResolvedSession}
    {binding : SessionBinding} : Answers (LicenseService.checkSessionLicense host license resolved binding) trace
      fun value after => value = license ∧ trace <+: after := by
  rw [LicenseService.checkSessionLicense]
  split
  · exact answers_bind _ answers_any fun _ _ _ => answers_throw
  · exact answers_bind _ answers_any fun _ _ grown => answers_pure ⟨rfl, grown⟩

theorem resolveSession_answers {binding : SessionBinding} :
    Answers (LicenseService.resolveSession host sessionToken binding) trace
      fun license after => Resolved sessionToken license.toLicense after := by
  have rejected : ∀ (token : String) (error : Failure) (after : ServerTrace),
      Answers (LicenseService.rejectSession host token binding error) after
        fun license after => Resolved sessionToken license.toLicense after :=
    fun _ _ _ => answers_bind _ answers_any fun _ _ _ => answers_throw
  refine answers_act fun refreshed => ?_
  cases refreshed with
  | none => exact answers_throw
  | some resolved =>
      simp only [LicenseService.requireActiveSessionLicense]
      cases owner : LicenseService.sessionLicenseId resolved with
      | none => exact rejected _ _ _
      | some id =>
          refine answers_act fun first => ?_
          cases first with
          | none => exact rejected _ _ _
          | some first =>
              refine answers_bind (fun found after => ∀ license, found = some license →
                Resolved sessionToken license.toLicense after) (answers_act fun found => ?_) ?_
              · cases found with
                | none => exact answers_pure fun _ same => by cases same
                | some license =>
                    refine answers_bind (fun policy after => policy.toLicense = license ∧
                      Resolved sessionToken license after) ?_ ?_
                    · refine answers_act fun ips => answers_act fun devices => answers_pure ⟨rfl, ?_⟩
                      exact ⟨host.hashBinding binding, resolved, id, first,
                        by simp [Took], owner, by simp [Took], by simp [Took]⟩
                    · rintro policy after ⟨same, reached⟩
                      refine answers_pure fun other returned => ?_
                      cases returned
                      exact same.symm ▸ reached
              · intro found after reached
                cases found with
                | none => exact rejected _ _ _
                | some license =>
                    refine Prog.wp_mono checkSessionLicense_answers fun result last checked value same => ?_
                    obtain ⟨rfl, grown⟩ := checked value same
                    obtain ⟨bindingHash, resolved, id, first, refreshed, owner, read, again⟩ := reached value rfl
                    exact ⟨bindingHash, resolved, id, first, took_prefix grown refreshed, owner,
                      took_prefix grown read, took_prefix grown again⟩

theorem transaction_answers {α : Type} {script : Draw → MeterScript α} :
    Answers (MeterRepository.transaction id (MeterRepository.statements id script)) trace fun result after =>
      ∃ before region written now outcome,
        after = before ++ [⟨.commit id none (written.map Write.meters).toList, .ok outcome⟩] ∧
          Under before (.meter id) (.query fun tables => tables.meters id) region ∧
          (script now).run region = .ok (written, result) := by
  refine answers_bind (fun result after => ∃ region written now,
    result.2 = (written.map Write.meters).toList ∧
      Under after (.meter id) (.query fun tables => tables.meters id) region ∧
      (script now).run region = .ok (written, result.1)) (answers_orRollback ?_) ?_
  · refine answers_act fun _ => answers_act fun now => answers_act fun region => ?_
    refine answers_except fun written ran => answers_pure ⟨region, written.1, now, rfl, ?_, ran⟩
    have held : Holding (trace ++ [⟨.lock (.meter id), .ok ()⟩]) (.meter id) :=
      holding_append.mpr ⟨rfl, .inr rfl⟩
    exact under_append.mpr ⟨rfl, .inr ⟨holding_append.mpr ⟨rfl, .inl held⟩, rfl⟩⟩
  · rintro ⟨result, writes⟩ after ⟨region, written, now, same, read, ran⟩
    refine answers_act fun outcome => answers_pure ?_
    exact ⟨after, region, written, now, outcome, by rw [← same], read, ran⟩

theorem spent_grows {request : UsageRequest} {answer : ConsumeUsageResult} {after : ServerTrace}
    (grown : trace <+: after) (spent : Spent host id request answer trace) :
    Spent host id request answer after := by
  obtain ⟨before, region, written, now, result, outcome, rest, rfl, facts⟩ := spent
  obtain ⟨deeds, rfl⟩ := grown
  exact ⟨before, region, written, now, result, outcome, rest ++ deeds, by simp, facts⟩

theorem consumeUnits_answers {license : License} {request : UsageRequest} :
    Answers (LicenseService.consumeUnits host license request) trace
      fun answer after => Spent host license.id request answer after ∧ trace <+: after := by
  refine answers_grow ?_
  rw [LicenseService.consumeUnits]
  split
  · exact answers_throw
  · refine answers_bind _ transaction_answers ?_
    rintro result after ⟨before, region, written, now, outcome, shape, read, ran⟩
    refine answers_domain fun answer answered => ?_
    have spent : Spent host license.id request answer after :=
      ⟨before, region, written, now, result, outcome, [], shape, read, ran, answered⟩
    refine answers_bind (fun _ last => after <+: last) answers_any fun _ last grown => ?_
    exact answers_pure (spent_grows grown spent)

theorem consume_answers {deviceId ip : String} {input : ConsumeUsageInput} :
    Answers (LicenseService.consume host sessionToken deviceId ip input) trace fun answer after =>
      ∃ request license, validateUsageInput input = .ok request ∧ Resolved sessionToken license after ∧
        Spent host license.id request answer after := by
  refine answers_except fun binding _ => answers_rethrow ?_ fun _ _ =>
    answers_bind _ answers_any fun _ _ _ => answers_throw
  refine answers_domain fun request valid => ?_
  refine answers_bind _ resolveSession_answers fun license after reached => ?_
  refine Prog.wp_mono consumeUnits_answers fun result last spent answer same => ?_
  obtain ⟨spent, grown⟩ := spent answer same
  obtain ⟨bindingHash, resolved, id, first, refreshed, owner, read, again⟩ := reached
  exact ⟨request, license.toLicense, valid, ⟨bindingHash, resolved, id, first, took_prefix grown refreshed,
    owner, took_prefix grown read, took_prefix grown again⟩, spent⟩

structure Debits (host : Host) (answer : ConsumeUsageResult) (table : MeterTable)
    (entry : UsageLedgerEntry) : Prop where
  member : entry ∈ table.ledger
  meter : ∃ meter ∈ table.meters, meter.id = entry.meterId ∧ meter.name = answer.meter
  kind : entry.kind = .consume
  delta : entry.delta = -answer.units
  event : entry.eventId = host.hashUsageEventId answer.eventId
  remaining : entry.balanceAfter = answer.remaining

/-- A consumption that is answered has its entry in the ledger, be it new or an older one. -/
theorem consumption_debits {request : UsageRequest} {answer : ConsumeUsageResult}
    {region written : MeterRegion} {result : UsageConsumptionResult} (accounted : region.Accounted)
    (consumption : Consumption request.meter request.units (host.hashUsageEventId request.eventId) region
      written result)
    (answered : consumeResponse request result = .ok answer) :
    answer.units = request.units ∧ answer.eventId = request.eventId ∧ answer.meter = request.meter ∧
      region.isSome ∧ ∃ table entry, written = some table ∧ Debits host answer table entry := by
  cases consumption with
  | replayed entry meter found same =>
      cases answered
      obtain ⟨kind, delta, name⟩ := same
      obtain ⟨member, event, listed, owner⟩ := ledgerEvent_some found
      cases region with
      | none => cases member
      | some table =>
          exact ⟨rfl, rfl, name, rfl, table, entry, rfl, member, ⟨meter, listed, owner, rfl⟩, kind, delta,
            event, rfl⟩
  | consumed table meter changed entry present unused found active covered debited posts kind event delta =>
      subst present
      cases answered
      obtain ⟨listed, name⟩ := meterNamed_some found
      have still : changed ∈ (table.post changed entry).meters :=
        List.mem_map.mpr ⟨meter, listed, if_pos posts.id.symm⟩
      exact ⟨rfl, rfl, posts.name.trans name, rfl, _, entry, rfl, by simp [MeterTable.post],
        ⟨changed, still, posts.id.trans posts.meterId.symm, rfl⟩, kind, delta, event, posts.balance.symm⟩
  | _ => cases answered

theorem debits_later {answer : ConsumeUsageResult} {table later : MeterTable} {entry : UsageLedgerEntry}
    (debits : Debits host answer table entry) (grown : table.ledger <+: later.ledger)
    (continues : Continues (fun _ => True) (some table) (some later)) : Debits host answer later entry := by
  obtain ⟨meter, listed, owner, name⟩ := debits.meter
  obtain ⟨found, there, sameId, sameName, -⟩ := continues.kept meter listed
  exact { debits with
    member := grown.subset debits.member
    meter := ⟨found, there, sameId.trans owner, sameName.trans name⟩ }

end Usage

section Runs

variable {host : Host} {now : Instant} {state : ServerState} {id : LicenseId} {call : Nat}

theorem read_id {view : ServerView} (sound : Sound view) {license : License}
    (took : Took (view.trace call) (.findLicense id) (some license)) : license.id = id := by
  obtain ⟨-, row, columns, same, -⟩ := read_license sound took
  exact (congrArg LicenseColumns.id columns).trans same

theorem exec_meters {table : MeterTable} {outcome : Option Written} {input : Input} {before after : World}
    {data : LicenseData} (present : before.tables.licenses id = some data)
    (ran : exec call (.commit id none [.meters table]) input before = some (after, .ok outcome)) :
    ∃ new, after.tables.licenses id = some new ∧ new.meters = table := by
  rcases runCommit_some ran with ⟨-, ⟨error, same⟩ | same⟩ | ⟨stored, -, -, -, -, rfl, -⟩
  · cases same
  · cases same
    cases (exec_commit_missed ran).symm.trans present
  · exact ⟨applyWrites input.draw.now [.meters table] stored, Function.update_self _ _ _, rfl⟩

theorem spent_debits (run : ServerRun host now state) {request : UsageRequest}
    {answer : ConsumeUsageResult} (spent : Spent host id request answer (state.view.trace call)) :
    answer.units = request.units ∧ answer.eventId = request.eventId ∧ answer.meter = request.meter ∧
      ∀ data, state.view.world.tables.licenses id = some data →
        ∃ entry, Debits host answer data.meters entry := by
  obtain ⟨before, region, written, drawn, result, outcome, after, shape, read, ran, answered⟩ := spent
  have allowed := server_run_allowed run
  obtain ⟨early, event, late, earlier, asker, history, own, deed, happened, same⟩ := deed_happened allowed shape
  have ledgered := allowedRun_throughout (lasting_ledgers host) happened.start
  rw [← same, ← own] at read
  obtain ⟨old, past, value, -⟩ := under_query happened.sound read
  have accounted : region.Accounted := by
    intro table present
    rw [value] at present
    obtain ⟨stored, there, rfl⟩ := Option.map_eq_some_iff.mp present
    exact (ledgered old past.visited id stored there).accounted
  obtain ⟨units, eventId, name, stored, table, entry, rfl, debits⟩ :=
    @consumption_debits host _ _ _ _ _ accounted (consumeMeter_spec accounted ran) answered
  refine ⟨units, eventId, name, fun data present => ⟨entry, ?_⟩⟩
  rw [value, Tables.meters, Option.isSome_map] at stored
  have known := past.progress.ids id (past.consistent.tables.known id (Option.isSome_iff_ne_none.mp stored))
  obtain ⟨found, there, -⟩ := allowedRun_moving (lasting_ledgers host) (moving_ledgers host)
    (happened_run happened) happened.sound ledgered known present
  obtain ⟨input, committed⟩ := deed_ran deed happened.ran
  rw [happened.world] at there
  obtain ⟨new, left, rfl⟩ := exec_meters there committed
  have member : event ∈ state.view.history := by simp [history]
  have grown := event_moving_after (lasting_ledgers host) (moving_ledgers host) run member left present
  have continues := event_moving_after (lasting_meters host) (moving_meters host) run member left present
  exact debits_later debits grown continues

def UsageTrail (host : Host) (request : Request) (result : Except Failure Response)
    (trace : ServerTrace) : Prop :=
  ∀ sessionToken deviceId ip input answer, request = .consume sessionToken deviceId ip input →
    result = .ok (.usage answer) → ∃ usage license, validateUsageInput input = .ok usage ∧
      Resolved sessionToken license trace ∧ Spent host license.id usage answer trace

theorem program_usage (host : Host) (request : Request) :
    (program host request).wp (fun _ _ => True) [] (UsageTrail host request) := by
  cases request with
  | consume sessionToken deviceId ip input =>
      refine Prog.wp_bind _ consume_answers ?_ ?_
      · rintro answer after trail _ _ _ _ _ ⟨⟩ ⟨⟩
        exact trail answer rfl
      · intro error after _ _ _ _ _ _ _ same
        cases same
  | _ =>
      refine Prog.wp_any fun result deeds => ?_
      intro _ _ _ _ _ same
      cases same

/-- An answered usage call has debited its units once: if the license of the session is still
there, the only entry for the event id is the debit that the answer is about. -/
theorem usage_debited (run : ServerRun host now state) {sessionToken deviceId ip : String}
    {input : ConsumeUsageInput} {answer : ConsumeUsageResult}
    (asked : state.view.requests call = some (.consume sessionToken deviceId ip input))
    (answered : state.pool call = some (.done (.ok (.usage answer)))) :
    answer.meter = trim input.meter ∧ answer.eventId = trim input.eventId ∧
      input.units = .integer answer.units ∧ 1 ≤ answer.units ∧
      ∃ bindingHash resolved id,
        Took (state.view.trace call) (.refreshSession sessionToken bindingHash) (some resolved) ∧
        LicenseService.sessionLicenseId resolved = some id ∧
        ∀ data, state.view.world.tables.licenses id = some data →
          ∃ entry, Debits host answer data.meters entry ∧
            ∀ other ∈ data.meters.ledger, other.eventId = entry.eventId → other = entry := by
  obtain ⟨other, same, trail⟩ := (run_allowed (program_usage host) run).2.2 call _ answered
  cases asked.symm.trans same
  obtain ⟨usage, license, valid, ⟨bindingHash, resolved, id, first, refreshed, owner, read, again⟩, spent⟩ :=
    trail sessionToken deviceId ip input answer rfl rfl
  have sound := server_run_sound run
  rw [read_id sound again, read_id sound read] at spent
  obtain ⟨units, eventId, name, debited⟩ := spent_debits run spent
  obtain ⟨meter, event, asked, positive, -⟩ := validateUsageInput_ok valid
  refine ⟨name.trans meter, eventId.trans event, units.symm ▸ asked, units.symm ▸ positive, bindingHash,
    resolved, id, refreshed, owner, fun data present => ?_⟩
  obtain ⟨entry, debits⟩ := debited data present
  have accounted := (server_run_throughout (lasting_ledgers host) run _ (.inl rfl) id data present).accounted
  exact ⟨entry, debits, fun other member same =>
    List.inj_on_of_nodup_map accounted.events member debits.member same⟩

/-- A usage call that is made twice, with the meters of `meteredSample`. -/
def usageSample : List (Choice Input Move Request) :=
  meteredSample ++ sampleCall 3 (.activate "key 102" "laptop" "10.0.0.1") 3 22 ++
    sampleCall 4 (.consume "314-0" "laptop" "10.0.0.1" ⟨"calls", .integer 3, "first"⟩) 4 11 ++
      sampleCall 5 (.consume "314-0" "laptop" "10.0.0.1" ⟨"calls", .integer 3, "first"⟩) 5 10

def usageAnswer (state : ServerState) (call : Nat) : Option ConsumeUsageResult :=
  match state.pool call with
  | some (.done (.ok (.usage answer))) => some answer
  | _ => none

theorem usageAnswer_some {answer : ConsumeUsageResult} (answered : usageAnswer state call = some answer) :
    state.pool call = some (.done (.ok (.usage answer))) := by
  unfold usageAnswer at answered
  split at answered
  · next ended =>
    cases answered
    exact ended
  · cases answered

def ofSample (deed : ServerDeed) : Bool :=
  match deed with
  | ⟨.refreshSession _ _, .ok (some resolved)⟩ => resolved.licenseId = sampleId.text
  | _ => true

theorem usage_debited_sample : ∃ state answer data, ServerRun sampleHost 0 state ∧
    state.pool 4 = some (.done (.ok (.usage answer))) ∧ state.pool 5 = some (.done (.ok (.usage answer))) ∧
      state.view.world.tables.licenses sampleId = some data ∧ answer.remaining = 2 ∧
      ∃ entry, Debits sampleHost answer data.meters entry ∧
        ∀ other ∈ data.meters.ledger, other.eventId = entry.eventId → other = entry := by
  obtain ⟨state, run, holds, started⟩ := @sampled_calls usageSample
    (fun state => usageAnswer state 4 = some ⟨"calls", 3, "first", 2⟩ &&
      usageAnswer state 5 = some ⟨"calls", 3, "first", 2⟩ && (state.view.trace 5).all ofSample &&
      (state.view.world.tables.licenses sampleId).isSome) (by decide +kernel)
  simp only [Bool.and_eq_true, decide_eq_true_eq] at holds
  obtain ⟨⟨⟨first, second⟩, own⟩, there⟩ := holds
  obtain ⟨data, present⟩ := Option.isSome_iff_exists.mp there
  have ended := usageAnswer_some second
  obtain ⟨request, asked, -⟩ := server_run_outcome run ended
  have listed := started 5 request asked
  have same : request = .consume "314-0" "laptop" "10.0.0.1" ⟨"calls", .integer 3, "first"⟩ := by
    simpa [usageSample, meteredSample, startedCalls, sampleCall, List.filterMap_append] using listed
  subst same
  obtain ⟨-, -, -, -, bindingHash, resolved, id, took, owner, debited⟩ := usage_debited run asked ended
  have text := of_decide_eq_true (List.all_eq_true.mp own _ took)
  obtain rfl := sessionLicenseId_text owner text
  exact ⟨state, _, data, run, usageAnswer_some first, ended, present, rfl, debited data present⟩

end Runs

end Keyzori
