import MevRelay.Relay.Steps

/-!
# Atomic calls

Every interleaving of the steps of the relay is matched by an interleaving of
handlers whose calls are atomic.  A method that looks takes effect when it
looks, one that writes when it gives the lock back, and a lookup of a validator
when the handle gets its answer.
-/

namespace MevRelay

open Concurrent InMemoryStorageInner

/-- The calls that are one step. -/
def Call.isDirect : Call → Bool
  | .storage _ | .getKnownValidator _ => false
  | _ => true

/-- The steps that carry out a call of a handler. -/
inductive Carries (past : List (Record RelaySteps)) : Record RelaySteps → Record Calls → Prop where
  | look {c : StorageCall} {inner : InMemoryStorageInner} {answer : c.Response}
      (reads : relayLock.phase past = .shared)
      (effect : ∀ store : InMemoryStorage, store.inner = inner →
        (c.apply store).1 = answer ∧ (c.apply store).2.inner = inner) :
      Carries past ⟨.storage (.lock .look), inner⟩ ⟨.storage c, answer⟩
  | write {c : StorageCall} {answer : c.Response}
      {changes : List (InMemoryStorageInner → InMemoryStorageInner)}
      (writes : relayLock.phase past = .exclusive changes)
      (effect : ∀ store : InMemoryStorage, (c.apply store).1 = answer ∧
        (c.apply store).2.inner = changes.foldl (fun inner change => change inner) store.inner) :
      Carries past ⟨.storage (.lock .unlockExclusive), ()⟩ ⟨.storage c, answer⟩
  | direct {c : Call} {answer : c.Response} (direct : c.isDirect = true) :
      Carries past ⟨.direct c, answer⟩ ⟨c, answer⟩
  | lookedUp {pubkey : BlsPublicKey} {reply : Except String KnownValidatorResponse} :
      Carries past ⟨.beacon (.drive .getKnownValidator (.getKnownValidator pubkey)), reply⟩
        ⟨.getKnownValidator pubkey, reply.toOption⟩
  | notSent {pubkey : BlsPublicKey} :
      Carries past ⟨.beacon (.channel (.send (.knownValidator pubkey))), none⟩
        ⟨.getKnownValidator pubkey, none⟩
  | notReceived {pubkey : BlsPublicKey} {receiver : Nat} :
      Carries past ⟨.beacon (.channel (.receive .getKnownValidator receiver)), none⟩
        ⟨.getKnownValidator pubkey, none⟩

/-- The steps between which a call is carried out. -/
def RelayStep.isSilent : RelayStep → Prop
  | .storage (.lock .unlockExclusive) | .direct _ => False
  | _ => True

def relayLink : Link RelaySteps Calls where
  possible past record := ∀ command receiver (answer : Option (BoxedFuture command.method)),
    past.getLast? = some ⟨.beacon (.channel (.send command)), some receiver⟩ →
    record = ⟨.beacon (.channel (.receive command.method receiver)), answer⟩ →
    answer = some (BeaconService.future command) ∨ answer = none
  silent _ record := record.1.isSilent
  commits := Carries

section Follows

variable (past : List (Record RelaySteps))

theorem phase_lock (c : LockCall InMemoryStorageInner) (answer : c.Response) :
    relayLock.phase (past ++ [⟨.storage (.lock c), answer⟩]) = (relayLock.phase past).next c :=
  relayLock.phase_concat_own (show lockRecord? _ = some ⟨c, answer⟩ from rfl) past

theorem phase_count (counter : Counter) :
    relayLock.phase (past ++ [⟨.storage (.count counter), ()⟩]) = relayLock.phase past :=
  relayLock.phase_concat_other (show lockRecord? _ = none from rfl) past

theorem phase_beacon (c : BeaconCall) (answer : c.Response) :
    relayLock.phase (past ++ [⟨.beacon c, answer⟩]) = relayLock.phase past :=
  relayLock.phase_concat_other (show lockRecord? _ = none from rfl) past

theorem phase_direct (c : Call) (answer : c.Response) :
    relayLock.phase (past ++ [⟨.direct c, answer⟩]) = relayLock.phase past :=
  relayLock.phase_concat_other (show lockRecord? _ = none from rfl) past

/-- A method that looks once, whatever it does with what it has seen. -/
theorem read_follows {Result : Type} (c : StorageCall) (view : InMemoryStorageInner → Result)
    (answer : Result → c.Response) (rest : Result → Program StorageSteps c.Response)
    (answers : ∀ store : InMemoryStorage, (c.apply store).1 = answer (view store.inner))
    (keeps : ∀ store : InMemoryStorage, (c.apply store).2.inner = store.inner)
    (goesOn : ∀ past result,
      Follows relayLink past ((rest result).expand storageStep) (.done (answer result))) :
    Follows relayLink past ((read view >>= rest).expand storageStep) (.call (.storage c) .done) := by
  refine .quiet fun _ _ => ⟨trivial, .commit fun inner _ => ⟨answer (view inner), ?_, ?_⟩⟩
  · refine .look (phase_lock past .lockShared ()) fun store same => ?_
    rw [← same]
    exact ⟨answers store, keeps store⟩
  · exact .quiet fun _ _ => ⟨trivial, goesOn _ _⟩

theorem look_follows (c : StorageCall) (view : InMemoryStorageInner → c.Response)
    (answers : ∀ store : InMemoryStorage, (c.apply store).1 = view store.inner)
    (keeps : ∀ store : InMemoryStorage, (c.apply store).2.inner = store.inner) :
    Follows relayLink past ((read view).expand storageStep) (.call (.storage c) .done) :=
  read_follows past c view id .done answers keeps fun _ result => .done result

theorem changeAll_follows (c : StorageCall) (answer : c.Response)
    (made changes : List (InMemoryStorageInner → InMemoryStorageInner))
    (writes : relayLock.phase past = .exclusive made)
    (effect : ∀ store : InMemoryStorage, (c.apply store).1 = answer ∧ (c.apply store).2.inner =
      (made ++ changes).foldl (fun inner change => change inner) store.inner) :
    Follows relayLink past ((changeAll changes).expand storageStep)
      (.call (.storage c) fun _ => .done ()) := by
  induction changes generalizing past made with
  | nil =>
      rw [List.append_nil] at effect
      exact .commit fun _ _ => ⟨answer, .write writes effect, .done ()⟩
  | cons change changes inductionHypothesis =>
      refine .quiet fun _ _ => ⟨trivial, inductionHypothesis _ (made ++ [change]) ?_ ?_⟩
      · rw [phase_lock past (.change change), writes]
        rfl
      · simpa using effect

/-- A method that writes. -/
theorem write_follows (c : StorageCall) (answer : c.Response)
    (changes : List (InMemoryStorageInner → InMemoryStorageInner))
    (effect : ∀ store : InMemoryStorage, (c.apply store).1 = answer ∧ (c.apply store).2.inner =
      changes.foldl (fun inner change => change inner) store.inner) :
    Follows relayLink past ((write changes).expand storageStep)
      (.call (.storage c) fun _ => .done ()) :=
  .quiet fun _ _ => ⟨trivial,
    changeAll_follows _ c answer [] changes (phase_lock past .lockExclusive ()) effect⟩

/-- Advancing a counter carries out nothing. -/
theorem count_follows {Result : Type} (counter : Counter) (rest : Unit → Program RelaySteps Result)
    {coarse : Program Calls Result}
    (goesOn : ∀ past, Follows relayLink past (rest ()) coarse) :
    Follows relayLink past (.call (.storage (.count counter)) rest) coarse :=
  .quiet fun _ _ => ⟨trivial, goesOn _⟩

/-- Every method of the storage carries out its atomic operation. -/
theorem storage_follows (c : StorageCall) :
    Follows relayLink past (c.steps.expand storageStep) (.call (.storage c) .done) := by
  cases c with
  | recordRelayedBlock blockHash =>
      refine read_follows past (.recordRelayedBlock blockHash) _ (fun _ => ()) _ ?_ ?_ ?_
      · exact fun _ => rfl
      · exact fun _ => rfl
      · exact fun past delivered => count_follows past _ _ fun _ => .done ()
  | setDeliveredBlocks blockHash =>
      refine count_follows past _ _ fun past => ?_
      refine write_follows past (.setDeliveredBlocks blockHash) () _ ?_
      exact fun _ => ⟨rfl, rfl⟩
  | setHeadSlot slot =>
      refine write_follows past (.setHeadSlot slot) () _ ?_
      exact fun _ => ⟨rfl, rfl⟩
  | writePayloadAttributes attrs =>
      refine write_follows past (.writePayloadAttributes attrs) () _ ?_
      exact fun _ => ⟨rfl, rfl⟩
  | setValidatorRegistrations registrations =>
      refine write_follows past (.setValidatorRegistrations registrations) () _ ?_
      exact fun _ => ⟨rfl, rfl⟩
  | setProposerDuties duties =>
      refine write_follows past (.setProposerDuties duties) () _ ?_
      exact fun _ => ⟨rfl, rfl⟩
  | setBestBid slot bid =>
      refine write_follows past (.setBestBid slot bid) () _ ?_
      exact fun _ => ⟨rfl, rfl⟩
  | setBlindedBlockResponse proposer response =>
      refine write_follows past (.setBlindedBlockResponse proposer response) () _ ?_
      exact fun _ => ⟨rfl, rfl⟩
  | forkData | readHeadSlot | readPayloadAttributes | emptyValidatorRegs
  | readValidatorRegistration | findDutyBySlot | readProposerDuties | isWhitelistedBuilder
  | readBestBidByBlockNumber | readBestBidBySlot | readBlindedBlockResponse | readBestBid =>
      exact look_follows past _ _ (fun _ => rfl) fun _ => rfl

/-- A validator is looked up through the service. -/
theorem getKnownValidator_follows (pubkey : BlsPublicKey) :
    Follows relayLink past ((Call.getKnownValidator pubkey).steps)
      (.call (.getKnownValidator pubkey) .done) := by
  intro sent _
  cases sent with
  | none => exact .inr ⟨.getKnownValidator pubkey, none, .done, rfl, .notSent, .done none⟩
  | some receiver =>
      refine .inl ⟨trivial, fun received possible => ?_⟩
      rcases possible (.knownValidator pubkey) receiver received (by simp) rfl with rfl | rfl
      · refine .inl ⟨trivial, .commit fun reply _ => ⟨reply.toOption, .lookedUp, ?_⟩⟩
        cases reply <;> exact .done _
      · exact .inr ⟨.getKnownValidator pubkey, none, .done, rfl, .notReceived, .done none⟩

theorem direct_follows (c : Call) (direct : c.isDirect = true) :
    Follows relayLink past (.call (.direct c) .done) (.call c .done) :=
  .commit fun answer _ => ⟨answer, .direct direct, .done answer⟩

theorem call_follows (c : Call) : Follows relayLink past c.steps (.call c .done) := by
  cases c with
  | storage c => exact storage_follows past c
  | getKnownValidator pubkey => exact getKnownValidator_follows past pubkey
  | validateApiKey | proposerDuties | spawnRefresh | publishBlock =>
      exact direct_follows past _ rfl

/-- What goes on around the service carries out no call. -/
theorem beacon_silent {Result : Type} (program : Program BeaconCalls Result) (reply : Reply) :
    Follows relayLink past ((fun _ => reply) <$> program.expand beaconStep) (.done reply) := by
  induction program generalizing past with
  | done result => exact .done reply
  | call c next inductionHypothesis =>
      exact .quiet fun answer _ => ⟨trivial, inductionHypothesis answer _⟩

theorem stepHandler_follows [Crates] (config : Config) (task : RelayTask) :
    Follows relayLink past (stepHandler config task) (callHandler config task) := by
  cases task with
  | request request => exact (handler config request).expand_follows call_follows past
  | service request => exact beacon_silent past _ _

end Follows

section Discipline

variable {past : List (Record RelaySteps)}

/-- What a call of a handler does about the lock and hands on. -/
def betweenLocks (Result : Type) : Outline RelaySteps Result where
  atCall := (relayLock.disciplined : Outline RelaySteps Result).atCall
  atResult past _ := relayLock.phase past = .outside

theorem read_disciplined {Result Other : Type} (view : InMemoryStorageInner → Result)
    (rest : Result → Program StorageSteps Other) (outside : relayLock.phase past = .outside)
    (goesOn : ∀ past result, relayLock.phase past = .outside →
      (betweenLocks Other).Holds past ((rest result).expand storageStep)) :
    (betweenLocks Other).Holds past ((read view >>= rest).expand storageStep) := by
  have locked := phase_lock past .lockShared ()
  refine ⟨fun _ => by rw [outside]; trivial, fun _ => ⟨fun _ => ?_, fun inner => ?_⟩⟩
  · rw [locked]
    trivial
  · have looked : relayLock.phase (past ++ [⟨.storage (.lock .lockShared), ()⟩] ++
        [⟨.storage (.lock .look), inner⟩]) = .shared := by
      rw [phase_lock _ .look inner, locked]
      rfl
    refine ⟨fun _ => by rw [looked]; trivial, fun _ => goesOn _ _ ?_⟩
    rw [phase_lock _ .unlockShared ()]
    rfl

theorem changeAll_disciplined (changes made : List (InMemoryStorageInner → InMemoryStorageInner))
    (writes : relayLock.phase past = .exclusive made) :
    (betweenLocks Unit).Holds past ((changeAll changes).expand storageStep) := by
  induction changes generalizing past made with
  | nil =>
      refine ⟨fun _ => by rw [writes]; trivial, fun _ => ?_⟩
      exact phase_lock past .unlockExclusive ()
  | cons change changes inductionHypothesis =>
      refine ⟨fun _ => by rw [writes]; trivial, fun _ => inductionHypothesis (made ++ [change]) ?_⟩
      rw [phase_lock past (.change change), writes]
      rfl

theorem write_disciplined (changes : List (InMemoryStorageInner → InMemoryStorageInner))
    (outside : relayLock.phase past = .outside) :
    (betweenLocks Unit).Holds past ((write changes).expand storageStep) :=
  ⟨fun _ => by rw [outside]; trivial,
    fun _ => changeAll_disciplined changes [] (phase_lock past .lockExclusive ())⟩

theorem count_disciplined (counter : Counter) (rest : Unit → Program RelaySteps Unit)
    (outside : relayLock.phase past = .outside)
    (goesOn : ∀ past, relayLock.phase past = .outside → (betweenLocks Unit).Holds past (rest ())) :
    (betweenLocks Unit).Holds past (.call (.storage (.count counter)) rest) :=
  ⟨fun _ => outside, fun _ => goesOn _ (by rw [phase_count past counter, outside])⟩

theorem storage_disciplined (c : StorageCall) (outside : relayLock.phase past = .outside) :
    (betweenLocks c.Response).Holds past (c.steps.expand storageStep) := by
  cases c with
  | recordRelayedBlock blockHash =>
      refine read_disciplined _ _ outside fun past delivered outside => ?_
      exact count_disciplined _ _ outside fun past outside => outside
  | setDeliveredBlocks blockHash =>
      exact count_disciplined _ _ outside fun past outside => write_disciplined _ outside
  | setHeadSlot | writePayloadAttributes | setValidatorRegistrations | setProposerDuties
  | setBestBid | setBlindedBlockResponse => exact write_disciplined _ outside
  | forkData | readHeadSlot | readPayloadAttributes | emptyValidatorRegs
  | readValidatorRegistration | findDutyBySlot | readProposerDuties | isWhitelistedBuilder
  | readBestBidByBlockNumber | readBestBidBySlot | readBlindedBlockResponse | readBestBid =>
      exact read_disciplined _ .done outside fun past result outside => outside

theorem beaconStep_disciplined (c : BeaconCall) (outside : relayLock.phase past = .outside) :
    (betweenLocks c.Response).Holds past (beaconStep c) := by
  refine ⟨fun _ => outside, fun answer => ?_⟩
  exact (phase_beacon past c answer).trans outside

theorem direct_disciplined (c : Call) (outside : relayLock.phase past = .outside) :
    (betweenLocks c.Response).Holds past (.call (.direct c) .done) := by
  refine ⟨fun _ => outside, fun answer => ?_⟩
  exact (phase_direct past c answer).trans outside

/-- No step outside the storage touches the lock. -/
theorem beacon_disciplined {Result : Type} (program : Program BeaconCalls Result)
    (outside : relayLock.phase past = .outside) :
    (betweenLocks Result).Holds past (program.expand beaconStep) :=
  program.expand_holds (fun past => relayLock.phase past = .outside)
    (fun _ c outside => beaconStep_disciplined c outside) (fun _ _ outside => outside) outside

theorem call_disciplined (c : Call) (outside : relayLock.phase past = .outside) :
    (betweenLocks c.Response).Holds past c.steps := by
  cases c with
  | storage c => exact storage_disciplined c outside
  | getKnownValidator pubkey => exact beacon_disciplined _ outside
  | validateApiKey | proposerDuties | spawnRefresh | publishBlock =>
      exact direct_disciplined _ outside

theorem stepHandler_disciplined [Crates] (config : Config) (task : RelayTask) :
    relayLock.disciplined.Holds [] (stepHandler config task) := by
  cases task with
  | request request =>
      exact (handler config request).expand_holds (fun past => relayLock.phase past = .outside)
        (fun past c outside => call_disciplined c outside) (fun _ _ outside => outside) rfl
  | service request =>
      refine ((beacon_disciplined (serviceHandler request) rfl).map (fun _ => Reply.handled)).mono
        (fun _ _ allowed => allowed) fun past reply found => ?_
      obtain ⟨result, _, outside⟩ := found
      exact outside

end Discipline

section Honesty

variable (past : List (Record RelaySteps))

theorem storage_honest {Result : Type} (program : Program StorageSteps Result) :
    relayMailbox.honest.Holds past (program.expand storageStep) := by
  induction program generalizing past with
  | done result => trivial
  | call c next inductionHypothesis =>
      exact ⟨fun _ _ _ same => (by cases same), fun answer => inductionHypothesis answer _⟩

theorem beacon_honest {Result : Type} {program : Program BeaconCalls Result}
    {before : List (Record BeaconCalls)} (honest : serviceMailbox.honest.Holds before program) :
    relayMailbox.honest.Holds past (program.expand beaconStep) := by
  induction program generalizing past before with
  | done result => trivial
  | call c next inductionHypothesis =>
      exact ⟨honest.1, fun answer => inductionHypothesis answer _ (honest.2 answer)⟩

theorem call_honest (c : Call) : relayMailbox.honest.Holds past c.steps := by
  cases c with
  | storage c => exact storage_honest past c.steps
  | getKnownValidator pubkey =>
      exact beacon_honest past (((request_honest [] (.knownValidator pubkey)).map _).mono
        (fun _ _ allowed => allowed) fun _ _ _ => trivial)
  | validateApiKey | proposerDuties | spawnRefresh | publishBlock =>
      exact ⟨fun _ _ _ same => (by cases same), fun _ => trivial⟩

theorem stepHandler_honest [Crates] (config : Config) (task : RelayTask) :
    relayMailbox.honest.Holds [] (stepHandler config task) := by
  cases task with
  | request request =>
      exact (handler config request).expand_holds (fun _ => True)
        (fun past c _ => call_honest past c) (fun _ _ _ => trivial) trivial
  | service request =>
      exact ((beacon_honest [] (serviceHandler_honest [] request)).map (fun _ => Reply.handled)).mono
        (fun _ _ allowed => allowed) fun _ _ _ => trivial

end Honesty

section Runs

variable [Crates] {config : Config} {trace front : List StepEvent} {world : StepWorld}
  {event : StepEvent}

/-- The lock of the storage agrees with the tasks. -/
theorem relay_exclusion (run : StepRun config trace world) :
    Exclusion (fun task => relayLock.phase (past task trace)) world.store.storage :=
  relayLock.exclusion run ⟨_, rfl⟩ (stepHandler_disciplined config)

theorem relay_exclusion_before (run : StepRun config (front ++ [event]) world) :
    Exclusion (fun task => relayLock.phase (past task front)) event.before.storage := by
  obtain ⟨⟨middle, shorter, same⟩, _⟩ := run.of_concat
  rw [← same]
  exact relay_exclusion shorter

/-- A step on the lock that is silent leaves the settled storage as it is. -/
theorem settled_of_silent (run : StepRun config (front ++ [event]) world)
    (silent : event.call.isSilent) : event.after.storage.settled = event.before.storage.settled := by
  have executed := run.of_concat.2
  have allowed := run.outline_atLast (stepHandler_disciplined config) event.response
  have exclusion := relay_exclusion_before run
  obtain ⟨task, request, c, answer, before, after⟩ := event
  rcases c with (c | counter) | c | c
  case storage.lock =>
    refine exclusion.settled_step allowed executed.1 fun same => ?_
    subst same
    exact silent
  case storage.count => exact congrArg (fun state => state.storage.settled) executed
  case beacon => exact congrArg RwLock.settled executed.2.1
  case direct => exact silent.elim

omit [Crates] in
theorem exec_of_direct {c : Call} (direct : c.isDirect = true) (answer : c.Response)
    (store : InMemoryStorage) : exec c store answer store := by
  cases c with
  | storage c => cases direct
  | validateApiKey | getKnownValidator | proposerDuties | spawnRefresh | publishBlock => rfl

theorem relayLink_sound : relayLink.Sound (stepHandler config) relayExec (.new config) exec
    (fun _ state (store : InMemoryStorage) => store.inner = state.storage.settled) where
  possible front event middle run := by
    intro command receiver answer last same
    obtain ⟨sending, inside, _, sends⟩ := mem_past.mp (List.mem_of_getLast? last)
    have sent : (⟨.send command, some receiver⟩ : Record (MailboxCalls beaconProtocol)) ∈
        relayMailbox.history front :=
      List.mem_filterMap.mpr ⟨sending, inside, by rw [sends]; rfl⟩
    obtain ⟨⟨before, shorter, found⟩, executed⟩ := run.of_concat
    have served := relayMailbox.served shorter rfl (stepHandler_honest config)
    rw [found] at served
    obtain ⟨task, request, c, response, state, after⟩ := event
    cases same
    rcases served.received sent executed.1.1 with found | ⟨none, _⟩
    · exact .inl found
    · exact .inr none
  silent front event middle store run silent related :=
    related.trans (settled_of_silent run silent).symm
  commits front event middle store call response run carries related := by
    have executed := run.of_concat.2
    have exclusion := relay_exclusion_before run
    obtain ⟨task, request, c, answer, before, after⟩ := event
    generalize carried : (⟨c, answer⟩ : Record RelaySteps) = record at carries
    generalize carriedOut : (⟨call, response⟩ : Record Calls) = coarse at carries
    cases carries with
    | look reads effect =>
        cases carried
        cases carriedOut
        obtain ⟨⟨seen, kept⟩, _⟩ := executed
        obtain ⟨answers, keeps⟩ := effect store
          (related.trans ((exclusion.of_shared reads).1.trans seen.symm))
        refine ⟨_, exec_storage.mpr ⟨answers.symm, rfl⟩, ?_⟩
        rw [keeps, seen, kept, (exclusion.of_shared reads).1]
    | write writes effect =>
        cases carried
        cases carriedOut
        obtain ⟨⟨_, freed⟩, _⟩ := executed
        obtain ⟨answers, changes⟩ := effect store
        refine ⟨_, exec_storage.mpr ⟨answers.symm, rfl⟩, ?_⟩
        rw [changes, related, freed]
        exact (exclusion.of_exclusive writes).2.1.symm
    | direct direct =>
        cases carried
        cases carriedOut
        exact ⟨store, exec_of_direct direct _ store,
          related.trans (congrArg (fun state => state.storage.settled) executed).symm⟩
    | lookedUp | notSent | notReceived =>
        cases carried
        cases carriedOut
        exact ⟨store, rfl, related.trans (congrArg RwLock.settled executed.2.1).symm⟩

/-- The run with atomic calls, each of which some step has carried out. -/
theorem StepRun.carriedOut (run : StepRun config trace world) :
    ∃ callTrace calls, RunFrom config config.init callTrace calls ∧
      calls.store.inner = world.store.storage.settled ∧
      List.Forall₂ (fun steps task => RelayTask.request? steps.request = some task.request ∧
          ∀ reply, steps.program = .done reply → task.program = .done reply)
        (world.tasks.filter fun task => (RelayTask.request? task.request).isSome) calls.tasks ∧
      ∀ call ∈ callTrace.map Event.record, ∃ past, ∃ event ∈ trace,
        Carries past event.record call := by
  obtain ⟨callTrace, calls, coarse, related, tracks, justified⟩ :=
    run.refine relayLink_sound (stepHandler_follows [] config) rfl
  obtain ⟨keptTrace, kept, records⟩ := coarse.without_idle RelayTask.request? (handler config)
    (fun task request found => by cases task <;> cases found; rfl)
    (fun task dropped => by cases task with
      | request request => cases dropped
      | service request => exact ⟨.handled, rfl⟩)
  refine ⟨keptTrace, _, kept, related, tracks.kept RelayTask.request?, fun call membership => ?_⟩
  rw [records] at membership
  obtain ⟨carried, inside, rfl⟩ := List.mem_map.mp membership
  obtain ⟨front, event, later, rfl, _, carries⟩ := justified carried inside
  exact ⟨_, event, by simp, carries⟩

omit [Crates] in
/-- A validator becomes known by an answer of the interface about this very validator. -/
theorem Carries.drove {past : List (Record RelaySteps)} {step : Record RelaySteps}
    {pubkey : BlsPublicKey} {known : KnownValidatorResponse}
    (carries : Carries past step ⟨.getKnownValidator pubkey, some known⟩) :
    step = ⟨.beacon (.drive .getKnownValidator (.getKnownValidator pubkey)), .ok known⟩ := by
  generalize carried : (⟨.getKnownValidator pubkey, some known⟩ : Record Calls) = call at carries
  cases carries with
  | @lookedUp asked reply =>
      cases reply with
      | error message => cases carried
      | ok answer =>
          cases carried
          rfl
  | direct direct =>
      cases carried
      cases direct
  | look | write | notSent | notReceived => cases carried

/-- The replies of the relay step by step are those of a run with atomic calls,
which agrees with it about the storage.  There a validator is known only if the
beacon node has said so about this very validator. -/
theorem steps_refine_atomic_calls (run : StepRun config trace world) :
    ∃ callTrace calls, RunFrom config config.init callTrace calls ∧
      calls.store.inner = world.store.storage.settled ∧
      List.Forall₂ (fun steps task => RelayTask.request? steps.request = some task.request ∧
          ∀ reply, steps.program = .done reply → task.program = .done reply)
        (world.tasks.filter fun task => (RelayTask.request? task.request).isSome) calls.tasks ∧
      ∀ pubkey known, ⟨.getKnownValidator pubkey, some known⟩ ∈ callTrace.map Event.record →
        ∃ event ∈ trace, event.record =
          ⟨.beacon (.drive .getKnownValidator (.getKnownValidator pubkey)), .ok known⟩ := by
  obtain ⟨callTrace, calls, callRun, settled, tasks, carriedOut⟩ := StepRun.carriedOut run
  refine ⟨callTrace, calls, callRun, settled, tasks, fun pubkey known membership => ?_⟩
  obtain ⟨_, event, inside, carries⟩ := carriedOut _ membership
  exact ⟨event, inside, carries.drove⟩

end Runs

section Contention

attribute [local instance] standIn

theorem Demo.resolved_run : StepRun Demo.config Demo.resolved.trace Demo.resolved.world := by
  unfold Demo.resolved
  exact Demo.playSteps_run _

theorem contention_refines_atomic_calls :
    ∃ callTrace calls, RunFrom Demo.config Demo.config.init callTrace calls ∧
      calls.store.slot = ⟨4⟩ ∧
      calls.store.validatorRegistrations.lookup (Demo.pubkey 3) = some (Demo.registration 3) := by
  have settled : Demo.resolved.world.store.storage.settled.slot = ⟨4⟩ ∧
      Demo.resolved.world.store.storage.settled.validatorRegistrations.lookup (Demo.pubkey 3) =
        some (Demo.registration 3) := by
    unfold Demo.resolved
    decide +kernel
  obtain ⟨callTrace, calls, run, same, _⟩ := steps_refine_atomic_calls Demo.resolved_run
  rw [← same] at settled
  exact ⟨callTrace, calls, run, settled⟩

end Contention

end MevRelay
