import MevRelay.Relay.Outlines

/-!
# Reading a trace

What the outlines say about the calls in a trace: who files bids, responses,
registrations and deliveries, and what that task has read before.
-/

namespace MevRelay

open Concurrent

/-- The requests of the two submission paths. -/
def Request.isSubmission : Request → Bool
  | .submitBlock _ | .postBids _ => true
  | _ => false

abbrev filed (bid : BidSubmission) : Record Calls :=
  answered (.setBestBid bid.message.slot bid) ()

abbrev responded (bid : BidSubmission) (duty : Validator) : Record Calls :=
  answered (.setBlindedBlockResponse duty.pubkey bid.toBlindedBlockResponse) ()

variable [Crates] {config : Config}

section Outlines

variable {request : Request} {past : List (Record Calls)} {reply : Reply}

/-- Only a submission files a best bid, and only its own after all checks. -/
theorem outline_setBestBid {slot : UInt64} {bid : BidSubmission}
    (allowed : (outline config request).atCall past (.storage (.setBestBid slot bid))) :
    request.isSubmission = true ∧ Reads past ∧ request.submission? = some bid ∧
      slot = bid.message.slot ∧ ∃ duty, Checked config.forkData past bid duty := by
  cases request
  case submitBlock | postBids => exact ⟨rfl, allowed⟩
  case getHeader | postBlindedBlocks | getBids | getValidators => cases allowed.2
  all_goals cases allowed

/-- Only a submission files a response, right after its bid. -/
theorem outline_setBlindedBlockResponse {proposer : BlsPublicKey} {response : BlindedBlockResponse}
    (allowed : (outline config request).atCall past
      (.storage (.setBlindedBlockResponse proposer response))) :
    request.isSubmission = true ∧ ∃ reads bid duty, past = reads ++ [filed bid] ∧ Reads reads ∧
      request.submission? = some bid ∧ Checked config.forkData reads bid duty ∧
      proposer = duty.pubkey ∧ response = bid.toBlindedBlockResponse := by
  cases request
  case submitBlock | postBids => exact ⟨rfl, allowed⟩
  case getHeader | postBlindedBlocks | getBids | getValidators => cases allowed.2
  all_goals cases allowed

theorem outline_submission_call (submits : request.isSubmission = true) {c : Call}
    (allowed : (outline config request).atCall past c) :
    Reads past ∨ ∃ reads bid, past = reads ++ [filed bid] ∧ Reads reads := by
  have submission : ∀ submission?, submissionCall config.forkData submission? past c →
      Reads past ∨ ∃ reads bid, past = reads ++ [filed bid] ∧ Reads reads := by
    intro submission? allowed
    simp only [submissionCall] at allowed
    split at allowed
    · exact .inl allowed.1
    · obtain ⟨reads, bid, _, split, only, _⟩ := allowed
      exact .inr ⟨reads, bid, split, only⟩
    · exact .inl allowed.1
  cases request
  case submitBlock | postBids => exact submission _ allowed
  all_goals cases submits

theorem outline_submission_frame (submits : request.isSubmission = true) {c : Call}
    (allowed : (outline config request).atCall past c) {store after : InMemoryStorage}
    {answer : c.Response} (executed : exec c store answer after) :
    after = { store with
      bestBidPerSlot := after.bestBidPerSlot
      bestBidByBlockNumber := after.bestBidByBlockNumber
      blindedBlockResp := after.blindedBlockResp } := by
  have submission : ∀ submission?, submissionCall config.forkData submission? past c →
      after = { store with
        bestBidPerSlot := after.bestBidPerSlot
        bestBidByBlockNumber := after.bestBidByBlockNumber
        blindedBlockResp := after.blindedBlockResp } := by
    intro submission? allowed
    rcases c with c | _ | _ | _ | _ | _
    case storage =>
      obtain ⟨rfl, rfl⟩ := exec_storage.mp executed
      cases c <;> first | rfl | cases allowed.2
    all_goals cases allowed.2
  cases request
  case submitBlock | postBids => exact submission _ allowed
  all_goals cases submits

/-- A submission that ends has made both writes and succeeded, or has only read. -/
theorem outline_submission_result (submits : request.isSubmission = true)
    (ended : (outline config request).atResult past reply) :
    if reply.isAccepted then
      ∃ reads bid duty, past = reads ++ [filed bid, responded bid duty] ∧ Reads reads ∧
        request.submission? = some bid ∧ Checked config.forkData reads bid duty
    else Reads past := by
  cases request
  case submitBlock | postBids =>
    obtain ⟨result, rfl, ended⟩ := ended
    exact ended
  all_goals cases submits

theorem isSubmission_of_isAccepted (ended : (outline config request).atResult past reply)
    (accepted : reply.isAccepted = true) : request.isSubmission = true := by
  cases request
  case submitBlock | postBids => rfl
  case postValidators | getHeader | postBlindedBlocks | getBids | getValidators | headEvent
      | payloadAttributesEvent | refreshDuties =>
    obtain ⟨result, rfl, _⟩ := ended
    cases accepted

theorem outline_accepted (ended : (outline config request).atResult past reply)
    (accepted : reply.isAccepted = true) :
    ∃ reads bid duty, past = reads ++ [filed bid, responded bid duty] ∧ Reads reads ∧
      request.submission? = some bid ∧ Checked config.forkData reads bid duty := by
  have result := outline_submission_result (isSubmission_of_isAccepted ended accepted) ended
  rwa [if_pos accepted] at result

end Outlines

section Events

variable {init : InMemoryStorage} {trace front later : List RelayEvent} {world : RelayWorld}
  {event : RelayEvent}

theorem setBestBid_event (run : RunFrom config init trace world)
    (split : trace = front ++ event :: later) {slot : UInt64} {bid : BidSubmission}
    (call : event.call = .storage (.setBestBid slot bid)) :
    event.request.isSubmission = true ∧ Reads (past event.task front) ∧
      event.request.submission? = some bid ∧ slot = bid.message.slot ∧
      ∃ duty, Checked config.forkData (past event.task front) bid duty := by
  have allowed := run.outline_atCall (holds_handler config) split
  rw [call] at allowed
  exact outline_setBestBid allowed

theorem setBlindedBlockResponse_event (run : RunFrom config init trace world)
    (split : trace = front ++ event :: later) {proposer : BlsPublicKey}
    {response : BlindedBlockResponse}
    (call : event.call = .storage (.setBlindedBlockResponse proposer response)) :
    event.request.isSubmission = true ∧ ∃ reads bid duty,
      past event.task front = reads ++ [filed bid] ∧ Reads reads ∧
      event.request.submission? = some bid ∧ Checked config.forkData reads bid duty ∧
      proposer = duty.pubkey ∧ response = bid.toBlindedBlockResponse := by
  have allowed := run.outline_atCall (holds_handler config) split
  rw [call] at allowed
  exact outline_setBlindedBlockResponse allowed

omit [Crates] in
/-- A storage operation answers from the store it finds. -/
theorem answer_of_record {event : RelayEvent} {c : StorageCall} {answer : c.Response}
    (executed : exec event.call event.before event.response event.after)
    (record : event.record = answered c answer) :
    event.call = .storage c ∧ answer = (c.apply event.before).1 := by
  obtain ⟨_, _, call, response, before, after⟩ := event
  cases record
  exact ⟨rfl, (exec_storage.mp executed).1⟩

theorem read_event (run : RunFrom config init trace world) {task : Nat} {c : StorageCall}
    {answer : c.Response} (membership : answered c answer ∈ past task trace) :
    ∃ read ∈ trace, read.task = task ∧ read.call = .storage c ∧
      answer = (c.apply read.before).1 := by
  obtain ⟨read, inside, same, record⟩ := mem_past.mp membership
  exact ⟨read, inside, same, answer_of_record (run.executed inside) record⟩

/-- Every read of the fork data answers what the storage was given. -/
theorem forkData_read (run : RunFrom config config.init trace world) {task : Nat}
    {forks : ForkDatas} (found : answered .forkData forks ∈ past task trace) :
    forks = config.forkData := by
  obtain ⟨read, inside, _, _, answer⟩ := read_event run found
  have unchanged := run.unchanged_before InMemoryStorage.forkData
    (fun _ _ _ _ executed => (exec_frame executed).2.1) inside
  exact answer.trans unchanged

/-- A task that filed a bid and has returned was accepted with that bid. -/
theorem accepted_of_filed (run : RunFrom config init trace world) (membership : event ∈ trace)
    {slot : UInt64} {bid : BidSubmission} (call : event.call = .storage (.setBestBid slot bid))
    {request : Request} {reply : Reply}
    (returned : world.tasks[event.task]? = some ⟨request, .done reply⟩) :
    reply.isAccepted = true ∧ request.submission? = some bid := by
  obtain ⟨front, later, split⟩ := List.append_of_mem membership
  obtain ⟨submits, _, carried, _⟩ := setBestBid_event run split call
  obtain ⟨program, found⟩ := run.event_task membership
  rw [returned] at found
  cases found
  refine ⟨?_, carried⟩
  by_contra rejected
  have ended := outline_submission_result submits
    (run.outline_atResult (holds_handler config) returned)
  rw [if_neg rejected] at ended
  have written : event.record ∈ past event.task trace := mem_past.mpr ⟨event, membership, rfl, rfl⟩
  have read := ended _ written
  simp only [Event.record, call] at read
  cases read

theorem acceptedBy_of_filed (run : RunFrom config init trace world) (finished : Finished world)
    (membership : event ∈ trace) {slot : UInt64} {bid : BidSubmission}
    (call : event.call = .storage (.setBestBid slot bid)) :
    slot = bid.message.slot ∧ event.request.submission? = some bid ∧
      AcceptedBy world event.task bid := by
  obtain ⟨front, later, split⟩ := List.append_of_mem membership
  obtain ⟨_, _, carried, own, _⟩ := setBestBid_event run split call
  obtain ⟨program, found⟩ := run.event_task membership
  obtain ⟨reply, rfl⟩ := finished _ (List.mem_of_getElem? found)
  obtain ⟨accepted, _⟩ := accepted_of_filed run membership call found
  exact ⟨own, carried, event.request, reply, found, accepted, carried⟩

/-- A task that filed a response has returned, and was accepted. -/
theorem accepted_of_responded (run : RunFrom config init trace world) (membership : event ∈ trace)
    {proposer : BlsPublicKey} {response : BlindedBlockResponse}
    (call : event.call = .storage (.setBlindedBlockResponse proposer response)) :
    ∃ reply, world.tasks[event.task]? = some ⟨event.request, .done reply⟩ ∧
      reply.isAccepted = true := by
  obtain ⟨front, later, split⟩ := List.append_of_mem membership
  have submits := (setBlindedBlockResponse_event run split call).1
  obtain ⟨program, found⟩ := run.event_task membership
  have written : event.record ∈ past event.task trace := mem_past.mpr ⟨event, membership, rfl, rfl⟩
  have notRead : event.record.1.isRead = false := by
    simp only [Event.record, call]
    rfl
  have holds := run.outline_holds (holds_handler config) found
  cases program with
  | done reply =>
      refine ⟨reply, found, ?_⟩
      by_contra rejected
      have ended := outline_submission_result submits holds
      rw [if_neg rejected] at ended
      rw [ended _ written] at notRead
      cases notRead
  | call c next =>
      rcases outline_submission_call submits holds.1 with reads | ⟨reads, bid, past, only⟩
      · rw [reads _ written] at notRead
        cases notRead
      · rw [past] at written
        rcases List.mem_append.mp written with earlier | last
        · rw [only _ earlier] at notRead
          cases notRead
        · have same : event.call = (filed bid).1 :=
            congrArg Sigma.fst (List.mem_singleton.mp last)
          rw [call] at same
          cases same

theorem filed_of_accepted (run : RunFrom config init trace world) {task : Nat}
    {request : Request} {reply : Reply}
    (returned : world.tasks[task]? = some ⟨request, .done reply⟩)
    (accepted : reply.isAccepted = true) :
    ∃ reads bid duty, past task trace = reads ++ [filed bid, responded bid duty] ∧
      Reads reads ∧ request.submission? = some bid ∧ Checked config.forkData reads bid duty :=
  outline_accepted (run.outline_atResult (holds_handler config) returned) accepted

end Events

end MevRelay
