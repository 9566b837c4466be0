import MevRelay.Relay.Authenticity
import MevRelay.Relay.Surroundings

/-!
# Delivered payloads

What the relay knows when it hands a block to the beacon node, returns a
payload or records a delivery, and whether it is the payload that was signed.
-/

namespace MevRelay

open Concurrent

section Reachable

variable [Crates] {config : Config}

section Outlines

variable {request : Request} {past : List (Record Calls)}

theorem outline_publishBlock {content : SignedBeaconBlockContent} {submissionType : SubmissionType}
    (allowed : (outline config request).atCall past (.publishBlock content submissionType)) :
    ∃ block duty response, request = .postBlindedBlocks block ∧
      LookedUp past block duty response ∧ content = block.unblind response ∧
      submissionType = .ssz := by
  cases request
  case postBlindedBlocks block =>
    obtain ⟨duty, response, found⟩ := allowed
    exact ⟨block, duty, response, rfl, found⟩
  case submitBlock | postBids | getHeader | getBids | getValidators => cases allowed.2
  all_goals cases allowed

theorem outline_setDeliveredBlocks {blockHash : B256}
    (allowed : (outline config request).atCall past (.storage (.setDeliveredBlocks blockHash))) :
    ∃ block reads duty response, request = .postBlindedBlocks block ∧
      LookedUp reads block duty response ∧ past = reads ++ [published block response] ∧
      blockHash = response.executionPayload.blockHash := by
  cases request
  case postBlindedBlocks block =>
    obtain ⟨reads, duty, response, found⟩ := allowed
    exact ⟨block, reads, duty, response, rfl, found⟩
  case submitBlock | postBids | getHeader | getBids | getValidators => cases allowed.2
  all_goals cases allowed

theorem outline_files {block : SignedBlindedBlock} {c : Call}
    (allowed : (outline config (.postBlindedBlocks block)).atCall past c) (files : c.files = true) :
    (∃ content submissionType, c = .publishBlock content submissionType) ∨
      ∃ blockHash, c = .storage (.setDeliveredBlocks blockHash) := by
  rcases c with c | _ | _ | _ | _ | ⟨content, submissionType⟩
  case publishBlock => exact .inl ⟨content, submissionType, rfl⟩
  case storage =>
    cases c
    case setDeliveredBlocks blockHash => exact .inr ⟨blockHash, rfl⟩
    case setBestBid | setBlindedBlockResponse | setValidatorRegistrations => cases allowed.2
    all_goals cases files
  all_goals cases files

theorem outline_returned {served : Versioned BlindedBlockResponse}
    (ended : (outline config request).atResult past (.postBlindedBlocks (.ok served))) :
    ∃ block reads duty, request = .postBlindedBlocks block ∧
      LookedUp reads block duty served.data ∧
      past = reads ++ [published block served.data,
        answered (.setDeliveredBlocks served.data.executionPayload.blockHash) ()] := by
  cases request
  case postBlindedBlocks block =>
    obtain ⟨result, same, ended⟩ := ended
    cases same
    obtain ⟨reads, duty, found, _, split⟩ := ended
    exact ⟨block, reads, duty, rfl, found, split⟩
  all_goals
    obtain ⟨result, same, _⟩ := ended
    cases same

end Outlines

variable {trace : List RelayEvent} {world : RelayWorld}

/-- The response was filed by a submission that had been accepted when a task
looked it up. -/
def AcceptedEarlier (config : Config) (trace : List RelayEvent) (task : Nat)
    (proposer : BlsPublicKey) (response : BlindedBlockResponse) : Prop :=
  ∃ front lookup later middle, trace = front ++ lookup :: later ∧ lookup.task = task ∧
    lookup.call = .storage (.readBlindedBlockResponse proposer) ∧
    RunFrom config config.init front middle ∧
    ∃ submitter bid, AcceptedBy middle submitter bid ∧ response = bid.toBlindedBlockResponse

/-- What the relay has checked of a blinded block, each at its moment, and
where the response it delivers comes from. -/
structure Delivered (config : Config) (trace : List RelayEvent) (task : Nat)
    (block : SignedBlindedBlock) (duty : Validator) (response : BlindedBlockResponse) : Prop where
  onDuty : AtMoment trace task (.findDutyBySlot block.message.slot) fun store =>
    store.findDutyBySlot block.message.slot = some duty
  index : duty.validatorIndex = block.message.proposerIndex
  registered : AtMoment trace task (.readValidatorRegistration duty.pubkey) fun store =>
    duty.pubkey ∈ store.validatorRegistrations
  signed : block.signature.verify duty.pubkey
    (signingRoot block.message config.forkData.computeProposerDomain) = true
  accepted : AcceptedEarlier config trace task duty.pubkey response

theorem accepted_of_lookup {front : List RelayEvent} {middle : RelayWorld}
    (run : RunFrom config config.init front middle) {proposer : BlsPublicKey}
    {response : BlindedBlockResponse}
    (found : middle.store.blindedBlockResp.lookup proposer = some response) :
    ∃ submitter bid, AcceptedBy middle submitter bid ∧ response = bid.toBlindedBlockResponse := by
  obtain ⟨writer, membership, write⟩ := run.event_of_lookup responses_written rfl found
  have call := of_responseWrite? write
  obtain ⟨reply, returned, accepted⟩ := accepted_of_responded run membership call
  obtain ⟨before, after, split⟩ := List.append_of_mem membership
  obtain ⟨_, _, bid, _, _, _, carried, _, _, same⟩ := setBlindedBlockResponse_event run split call
  exact ⟨writer.task, bid, ⟨writer.request, reply, returned, accepted, carried⟩, same⟩

theorem lookup_event (run : RunFrom config config.init trace world) {task : Nat}
    {block : SignedBlindedBlock} {duty : Validator} {response : BlindedBlockResponse}
    {reads rest : List (Record Calls)} (made : past task trace = reads ++ rest)
    (found : LookedUp reads block duty response) :
    ∃ front lookup later middle, trace = front ++ lookup :: later ∧ lookup.task = task ∧
      lookup.call = .storage (.readBlindedBlockResponse duty.pubkey) ∧ past task later = rest ∧
      RunFrom config config.init front middle ∧
      middle.store.blindedBlockResp.lookup duty.pubkey = some response := by
  obtain ⟨checks, rfl, _⟩ := found
  rw [List.append_assoc, List.singleton_append] at made
  obtain ⟨front, lookup, later, split, own, record, _, after⟩ := past_split made
  have executed := (run.event_at front lookup later split).1
  obtain ⟨middle, shorter, started⟩ := run.prefix_before split
  obtain ⟨_, _, call, answer, before, _⟩ := lookup
  cases record
  refine ⟨front, _, later, middle, split, own, rfl, after, shorter, ?_⟩
  rw [started]
  exact (exec_storage.mp executed).1.symm

theorem delivered_of_lookedUp (run : RunFrom config config.init trace world) {task : Nat}
    {block : SignedBlindedBlock} {duty : Validator} {response : BlindedBlockResponse}
    {reads rest : List (Record Calls)} (made : past task trace = reads ++ rest)
    (found : LookedUp reads block duty response) :
    Delivered config trace task block duty response := by
  obtain ⟨front, lookup, later, middle, split, own, call, _, shorter, held⟩ :=
    lookup_event run made found
  obtain ⟨checks, rfl, _, authorised, _⟩ := found
  have earlier : checks ⊆ past task trace := by
    rw [made, List.append_assoc]
    exact List.subset_append_left _ _
  refine ⟨?_, authorised.index, ?_, ?_, front, lookup, later, middle, split, own, call, shorter,
    accepted_of_lookup shorter held⟩
  · obtain ⟨read, inside, same, call, answer⟩ := read_event run (earlier authorised.onDuty)
    exact ⟨read, inside, same, call, answer.symm⟩
  · obtain ⟨registration, stored⟩ := authorised.registered
    obtain ⟨read, inside, same, call, answer⟩ := read_event run (earlier stored)
    exact ⟨read, inside, same, call, Finmap.mem_of_lookup_eq_some answer.symm⟩
  · obtain ⟨forks, read, verified⟩ := authorised.signed
    obtain rfl : forks = config.forkData := forkData_read run (earlier read)
    exact verified

theorem publish_event (run : RunFrom config config.init trace world)
    {front later : List RelayEvent} {event : RelayEvent} (split : trace = front ++ event :: later)
    {content : SignedBeaconBlockContent} {submissionType : SubmissionType}
    (publishes : event.call = .publishBlock content submissionType) :
    ∃ block duty response, event.request = .postBlindedBlocks block ∧
      LookedUp (past event.task front) block duty response ∧ content = block.unblind response := by
  have allowed := run.outline_atCall (holds_handler config) split
  rw [publishes] at allowed
  obtain ⟨block, duty, response, request, found, same, _⟩ := outline_publishBlock allowed
  exact ⟨block, duty, response, request, found, same⟩

/-- A task records a delivery after it has published the block. -/
theorem record_event (run : RunFrom config config.init trace world)
    {front later : List RelayEvent} {event : RelayEvent} (split : trace = front ++ event :: later)
    {blockHash : B256} (records : event.call = .storage (.setDeliveredBlocks blockHash)) :
    ∃ block reads duty response, event.request = .postBlindedBlocks block ∧
      LookedUp reads block duty response ∧
      past event.task front = reads ++ [published block response] ∧
      blockHash = response.executionPayload.blockHash ∧
      ∃ publish ∈ front, publish.task = event.task ∧
        publish.call = .publishBlock (block.unblind response) .ssz := by
  have allowed := run.outline_atCall (holds_handler config) split
  rw [records] at allowed
  obtain ⟨block, reads, duty, response, request, found, made, hash⟩ :=
    outline_setDeliveredBlocks allowed
  obtain ⟨publish, inside, own, record⟩ :=
    mem_past.mp (made ▸ List.mem_append_right reads (List.mem_singleton_self _))
  exact ⟨block, reads, duty, response, request, found, made, hash, publish, inside, own,
    congrArg Sigma.fst record⟩

/-- A task returns a payload after it has published the block. -/
theorem publish_of_returned (run : RunFrom config config.init trace world) {task : Nat}
    {request : Request} {served : Versioned BlindedBlockResponse}
    (returned : world.tasks[task]? = some ⟨request, .done (.postBlindedBlocks (.ok served))⟩) :
    ∃ block, request = .postBlindedBlocks block ∧ ∃ publish ∈ trace, publish.task = task ∧
      publish.call = .publishBlock (block.unblind served.data) .ssz := by
  obtain ⟨block, reads, duty, rfl, found, made⟩ :=
    outline_returned (run.outline_atResult (holds_handler config) returned)
  have membership : published block served.data ∈ past task trace := by simp [made]
  obtain ⟨publish, inside, own, record⟩ := mem_past.mp membership
  exact ⟨block, rfl, publish, inside, own, congrArg Sigma.fst record⟩

theorem deliveredBlocks_eq (run : RunFrom config config.init trace world) :
    world.store.deliveredBlocks = trace.filterMap fun event => deliveredWrite? event.record := by
  refine run.invariant (fun trace store => store.deliveredBlocks =
    trace.filterMap fun event => deliveredWrite? event.record) rfl ?_
  intro front event _ executed held
  rw [deliveredBlocks_exec executed, held, List.filterMap_append]
  change _ ++ (deliveredWrite? event.record).toList = _
  cases written : deliveredWrite? event.record <;> simp [written]

/-- Every block handed to the beacon node, every payload returned and every
hash recorded as delivered is backed by the checks of its request and by a
submission accepted earlier in the run. -/
theorem deliveries_authorised (run : RunFrom config config.init trace world) :
    (∀ front event later content submissionType, trace = front ++ event :: later →
      event.call = .publishBlock content submissionType →
      ∃ block duty response, event.request = .postBlindedBlocks block ∧
        content = block.unblind response ∧
        Delivered config front event.task block duty response) ∧
    (∀ task request served,
      world.tasks[task]? = some ⟨request, .done (.postBlindedBlocks (.ok served))⟩ →
      ∃ block duty, request = .postBlindedBlocks block ∧
        Delivered config trace task block duty served.data) ∧
    (∀ front event later blockHash, trace = front ++ event :: later →
      event.call = .storage (.setDeliveredBlocks blockHash) →
      ∃ block duty response, event.request = .postBlindedBlocks block ∧
        blockHash = response.executionPayload.blockHash ∧
        (∃ publish ∈ front, publish.task = event.task ∧
          publish.call = .publishBlock (block.unblind response) .ssz) ∧
        Delivered config front event.task block duty response) ∧
    (∀ blockHash ∈ world.store.deliveredBlocks, ∃ event ∈ trace,
      event.call = .storage (.setDeliveredBlocks blockHash)) := by
  refine ⟨?_, ?_, ?_, ?_⟩
  · intro front event later content submissionType split call
    obtain ⟨block, duty, response, request, found, same⟩ := publish_event run split call
    obtain ⟨middle, shorter⟩ := run.prefix_run split
    exact ⟨block, duty, response, request, same,
      delivered_of_lookedUp shorter (List.append_nil _).symm found⟩
  · intro task request served returned
    obtain ⟨block, reads, duty, rfl, found, made⟩ :=
      outline_returned (run.outline_atResult (holds_handler config) returned)
    exact ⟨block, duty, rfl, delivered_of_lookedUp run made found⟩
  · intro front event later blockHash split call
    obtain ⟨block, reads, duty, response, request, found, made, hash, publish⟩ :=
      record_event run split call
    obtain ⟨middle, shorter⟩ := run.prefix_run split
    exact ⟨block, duty, response, request, hash, publish,
      delivered_of_lookedUp shorter made found⟩
  · intro blockHash recorded
    rw [deliveredBlocks_eq run, List.mem_filterMap] at recorded
    obtain ⟨event, membership, write⟩ := recorded
    refine ⟨event, membership, ?_⟩
    simp only [deliveredWrite?] at write
    split at write
    case h_1 recordedHash call =>
      cases write
      exact call
    case h_2 => cases write

/-- The header that a blinded block was signed over. -/
def SignedBlindedBlock.header (block : SignedBlindedBlock) : ExecutionPayloadHeader :=
  block.message.body.executionPayloadHeader

/-- What is published and returned for a blinded block is what was signed, and
nothing is revealed for a header without a matching payload. -/
structure UnblindsSafely (trace : List RelayEvent) (world : RelayWorld) : Prop where
  publishes : ∀ event ∈ trace, ∀ block content submissionType,
    event.request = .postBlindedBlocks block →
    event.call = .publishBlock content submissionType →
    content.executionPayload.HasHeader block.header
  returns : ∀ (task : Nat) block served,
    world.tasks[task]? =
      some ⟨.postBlindedBlocks block, .done (.postBlindedBlocks (.ok served))⟩ →
    served.data.executionPayload.HasHeader block.header
  keepsUnmatched : ∀ lookup ∈ trace, ∀ block proposer,
    lookup.request = .postBlindedBlocks block →
    lookup.call = .storage (.readBlindedBlockResponse proposer) →
    (∀ key response, lookup.before.blindedBlockResp.lookup key = some response →
      ¬ response.executionPayload.HasHeader block.header) →
    (∀ event ∈ trace, event.task = lookup.task → event.call.files = false) ∧
    ∀ served, world.tasks[lookup.task]? ≠
      some ⟨.postBlindedBlocks block, .done (.postBlindedBlocks (.ok served))⟩

/-- Each blinded block that is published was signed over the payload filed last
for its proposer before the response was looked up. -/
def RedeemsLastFiled (trace : List RelayEvent) : Prop :=
  ∀ front lookup later block proposer response, trace = front ++ lookup :: later →
    lookup.request = .postBlindedBlocks block →
    lookup.call = .storage (.readBlindedBlockResponse proposer) →
    (∃ publish ∈ later, publish.task = lookup.task ∧
      ∃ content submissionType, publish.call = .publishBlock content submissionType) →
    lastWrite proposer (writesOf responseWrite? front) = some response →
    response.executionPayload.HasHeader block.header

theorem held_of_record (run : RunFrom config config.init trace world) {lookup : RelayEvent}
    (membership : lookup ∈ trace) {proposer : BlsPublicKey}
    {response : Option BlindedBlockResponse}
    (record : lookup.record = answered (.readBlindedBlockResponse proposer) response) :
    lookup.before.blindedBlockResp.lookup proposer = response := by
  have executed := run.executed membership
  obtain ⟨_, _, call, answer, before, after⟩ := lookup
  cases record
  exact (exec_storage.mp executed).1.symm

theorem LookedUp.eq_of_mem {reads : List (Record Calls)} {block : SignedBlindedBlock}
    {duty : Validator} {response : BlindedBlockResponse}
    (found : LookedUp reads block duty response) {record : Record Calls}
    (membership : record ∈ reads) {proposer : BlsPublicKey}
    (call : record.1 = .storage (.readBlindedBlockResponse proposer)) :
    record = answered (.readBlindedBlockResponse duty.pubkey) (some response) := by
  obtain ⟨checks, rfl, _, _, others⟩ := found
  rcases List.mem_append.mp membership with earlier | last
  · exact absurd call (others record earlier proposer)
  · exact List.mem_singleton.mp last

theorem held_of_delivered (run : RunFrom config config.init trace world) {lookup : RelayEvent}
    (membership : lookup ∈ trace) {proposer : BlsPublicKey}
    (call : lookup.call = .storage (.readBlindedBlockResponse proposer))
    {reads : List (Record Calls)} {block : SignedBlindedBlock} {duty : Validator}
    {response : BlindedBlockResponse} (found : LookedUp reads block duty response)
    (made : lookup.record ∈ reads) :
    lookup.before.blindedBlockResp.lookup proposer = some response := by
  have record := found.eq_of_mem made call
  have same : lookup.call = .storage (.readBlindedBlockResponse duty.pubkey) :=
    congrArg Sigma.fst record
  rw [call] at same
  cases same
  exact held_of_record run membership record

theorem lastFiled_of_held (run : RunFrom config config.init trace world)
    {front later : List RelayEvent} {lookup : RelayEvent}
    (split : trace = front ++ lookup :: later) (proposer : BlsPublicKey) :
    lookup.before.blindedBlockResp.lookup proposer =
      lastWrite proposer (writesOf responseWrite? front) := by
  obtain ⟨middle, shorter, started⟩ := run.prefix_before split
  rw [← started]
  exact shorter.lastWrite_of_lookup responses_written rfl proposer

/-- A task looks a response up before it publishes, and never after. -/
theorem lookup_before_publish (run : RunFrom config config.init trace world)
    {front later : List RelayEvent} {publish lookup : RelayEvent}
    (split : trace = front ++ publish :: later) {content : SignedBeaconBlockContent}
    {submissionType : SubmissionType} (publishes : publish.call = .publishBlock content submissionType)
    (membership : lookup ∈ trace) {proposer : BlsPublicKey}
    (call : lookup.call = .storage (.readBlindedBlockResponse proposer))
    (own : publish.task = lookup.task) : lookup ∈ front := by
  rw [split] at membership
  rcases List.mem_append.mp membership with earlier | rest
  · exact earlier
  rcases List.mem_cons.mp rest with rfl | after
  · rw [call] at publishes
    cases publishes
  · obtain ⟨between, last, rfl⟩ := List.append_of_mem after
    have whole : trace = (front ++ publish :: between) ++ lookup :: last := by simp [split]
    have allowed := run.outline_atCall (holds_handler config) whole
    have request : ∃ block, lookup.request = .postBlindedBlocks block := by
      have same : publish.request = lookup.request :=
        run.request_eq (by simp [split]) (by simp [split]) own
      obtain ⟨block, _, _, request, _⟩ := publish_event run split publishes
      exact ⟨block, same ▸ request⟩
    obtain ⟨block, request⟩ := request
    rw [request, call] at allowed
    have made : publish.record ∈ past lookup.task (front ++ publish :: between) :=
      mem_past.mpr ⟨publish, by simp, own, rfl⟩
    have read := allowed.1 _ made
    simp only [Event.record, publishes] at read
    cases read

theorem payload_signed (run : RunFrom config config.init trace world)
    (redeems : RedeemsLastFiled trace) {publish : RelayEvent} (membership : publish ∈ trace)
    {block : SignedBlindedBlock} (request : publish.request = .postBlindedBlocks block)
    {content : SignedBeaconBlockContent} {submissionType : SubmissionType}
    (publishes : publish.call = .publishBlock content submissionType) :
    content.executionPayload.HasHeader block.header := by
  obtain ⟨before, after, split⟩ := List.append_of_mem membership
  obtain ⟨_, duty, response, own, lookedUp, rfl⟩ := publish_event run split publishes
  rw [request] at own
  cases own
  obtain ⟨middle, shorter⟩ := run.prefix_run split
  obtain ⟨front, lookup, later, earlier, inner, task, reading, _, earlierRun, held⟩ :=
    lookup_event shorter (List.append_nil _).symm lookedUp
  have whole : trace = front ++ lookup :: (later ++ publish :: after) := by simp [split, inner]
  have same := run.request_eq (by simp [whole]) membership task
  rw [request] at same
  refine redeems front lookup _ block duty.pubkey response whole same reading
    ⟨publish, by simp, task.symm, _, submissionType, publishes⟩ ?_
  rw [← earlierRun.lastWrite_of_lookup responses_written rfl, held]

/-- A task publishes the payload that was stored when it looked the response up. -/
theorem held_of_published (run : RunFrom config config.init trace world)
    {publish lookup : RelayEvent} (inside : publish ∈ trace) (membership : lookup ∈ trace)
    (own : publish.task = lookup.task) {block : SignedBlindedBlock}
    (request : lookup.request = .postBlindedBlocks block) {proposer : BlsPublicKey}
    (call : lookup.call = .storage (.readBlindedBlockResponse proposer))
    {content : SignedBeaconBlockContent} {submissionType : SubmissionType}
    (publishes : publish.call = .publishBlock content submissionType) :
    publish.request = .postBlindedBlocks block ∧ ∃ response,
      lookup.before.blindedBlockResp.lookup proposer = some response ∧
      content = block.unblind response := by
  obtain ⟨before, after, split⟩ := List.append_of_mem inside
  obtain ⟨_, duty, response, publisher, lookedUp, rfl⟩ := publish_event run split publishes
  have same := run.request_eq inside membership own
  rw [publisher, request] at same
  cases same
  have earlier := lookup_before_publish run split publishes membership call own
  have made : lookup.record ∈ past publish.task before :=
    mem_past.mpr ⟨lookup, earlier, own.symm, rfl⟩
  exact ⟨publisher, response, held_of_delivered run membership call lookedUp made, rfl⟩

theorem unfiled_of_unpublished (run : RunFrom config config.init trace world) {event : RelayEvent}
    (membership : event ∈ trace) {block : SignedBlindedBlock}
    (request : event.request = .postBlindedBlocks block)
    (unpublished : ∀ publish ∈ trace, publish.task = event.task → ∀ content submissionType,
      publish.call ≠ .publishBlock content submissionType) :
    event.call.files = false := by
  obtain ⟨before, after, split⟩ := List.append_of_mem membership
  cases files : event.call.files with
  | false => rfl
  | true =>
    have allowed := run.outline_atCall (holds_handler config) split
    rw [request] at allowed
    rcases outline_files allowed files with ⟨content, submissionType, published⟩ | ⟨hash, recorded⟩
    · exact absurd published (unpublished event membership rfl content submissionType)
    · obtain ⟨_, _, _, _, _, _, _, _, publish, earlier, own, published⟩ :=
        record_event run split recorded
      have inside : publish ∈ trace := by simp [split, earlier]
      exact absurd published (unpublished publish inside own _ _)

/-- The relay unblinds safely exactly when every blinded block it publishes was
signed over the payload filed last for its proposer. -/
theorem unblindsSafely_iff (run : RunFrom config config.init trace world) :
    UnblindsSafely trace world ↔ RedeemsLastFiled trace := by
  constructor
  · rintro safe front lookup later block proposer response split request call
      ⟨publish, membership, own, content, submissionType, publishes⟩ last
    have lookupMember : lookup ∈ trace := by simp [split]
    have publishMember : publish ∈ trace := by simp [split, membership]
    obtain ⟨published, _, held, rfl⟩ :=
      held_of_published run publishMember lookupMember own request call publishes
    rw [lastFiled_of_held run split, last] at held
    cases held
    exact safe.publishes publish publishMember block _ submissionType published publishes
  · intro redeems
    refine ⟨?publishes, ?returns, ?keepsUnmatched⟩
    case publishes =>
      intro publish membership block content submissionType request publishes
      exact payload_signed run redeems membership request publishes
    case returns =>
      intro task block served returned
      obtain ⟨_, own, publish, inside, rfl, publishes⟩ := publish_of_returned run returned
      cases own
      exact payload_signed run redeems inside (run.request_of_task inside rfl returned) publishes
    case keepsUnmatched =>
      intro lookup membership block proposer request call unmatched
      have unpublished : ∀ publish ∈ trace, publish.task = lookup.task →
          ∀ content submissionType, publish.call ≠ .publishBlock content submissionType := by
        intro publish inside own content submissionType publishes
        obtain ⟨published, response, held, rfl⟩ :=
          held_of_published run inside membership own request call publishes
        exact unmatched proposer response held
          (payload_signed run redeems inside published publishes)
      refine ⟨?_, ?_⟩
      · intro event inside own
        refine unfiled_of_unpublished run inside
          ((run.request_eq inside membership own).trans request) ?_
        rw [own]
        exact unpublished
      · intro served returned
        obtain ⟨_, _, publish, inside, own, publishes⟩ := publish_of_returned run returned
        exact unpublished publish inside own _ _ publishes

end Reachable

section Demo

open Demo

attribute [local instance] standIn

def redeemed (blockHash : UInt8) : Played Calls Request Reply InMemoryStorage :=
  play [.postBids (bid 5 6), .postBlindedBlocks (blindedBlock (.ofPayload (payload blockHash)))]
    (List.replicate 8 2 ++ List.replicate 7 3)

theorem redeemed_run (blockHash : UInt8) :
    RunFrom config config.init (redeemed blockHash).trace (redeemed blockHash).world :=
  playFrom_run _ _ _

theorem demo_delivery_authorised :
    ∃ block duty, blindedBlock (.ofPayload (payload 6)) = block ∧
      Delivered config (redeemed 6).trace 3 block duty (bid 5 6).toBlindedBlockResponse := by
  obtain ⟨_, returns, _, _⟩ := deliveries_authorised (redeemed_run 6)
  obtain ⟨block, duty, request, delivered⟩ := returns 3
    (.postBlindedBlocks (blindedBlock (.ofPayload (payload 6))))
    ⟨.deneb, (bid 5 6).toBlindedBlockResponse⟩ (World.returned?_eq_some.mp (by decide +kernel))
  exact ⟨block, duty, Request.postBlindedBlocks.inj request, delivered⟩

theorem demo_unblinds_safely_iff :
    UnblindsSafely (redeemed 6).trace (redeemed 6).world ↔ RedeemsLastFiled (redeemed 6).trace :=
  unblindsSafely_iff (redeemed_run 6)

/-- A block signed over the header of payload 8 is unblinded with payload 6. -/
theorem forged_header_unblinded :
    RunFrom config config.init (redeemed 8).trace (redeemed 8).world ∧
      ¬ UnblindsSafely (redeemed 8).trace (redeemed 8).world := by
  refine ⟨redeemed_run 8, fun safe => ?_⟩
  have same := safe.returns 3 (blindedBlock (.ofPayload (payload 8)))
    ⟨.deneb, (bid 5 6).toBlindedBlockResponse⟩ (World.returned?_eq_some.mp (by decide +kernel))
  exact absurd same (by decide +kernel)

end Demo

end MevRelay
