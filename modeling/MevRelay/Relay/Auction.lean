import MevRelay.Relay.Traces
import MevRelay.Relay.Surroundings

/-!
# The auction

With atomic handlers the bids accepted for a key rise, and the header served
for the key is that of the highest one.
-/

namespace MevRelay

open Concurrent

section Atomic

variable [Crates] {config : Config}

section Handlers

variable {request : Request} {store after : InMemoryStorage} {calls : List (Record Calls)}
  {reply : Reply}

/-- What the acceptance of a submission shows about the store it found, and what
it leaves there. -/
structure Accepted (store : InMemoryStorage) (request : Request) (after : InMemoryStorage)
    (bid : BidSubmission) (duty : Validator) : Prop where
  carried : request.submission? = some bid
  higher : ∀ held, store.bestBidPerSlot.lookup bid.key = some held → held.value < bid.value
  onDuty : store.findDutyBySlot bid.message.slot = some duty
  stored : after = (store.setBestBid bid.message.slot bid).setBlindedBlockResponse duty.pubkey
    bid.toBlindedBlockResponse

theorem accepted_exec (executed : Exec exec (handler config request) store calls reply after)
    (accepted : reply.isAccepted = true) : ∃ bid duty, Accepted store request after bid duty := by
  obtain ⟨reads, bid, duty, rfl, only, carried, checked⟩ :=
    outline_accepted (executed.atResult (holds_handler config request)) accepted
  obtain ⟨answers, remaining, rest⟩ := answers_of_reads executed only
  refine ⟨bid, duty, carried, ?_, ?_, ?_⟩
  · intro held stored
    obtain ⟨best, found, lower⟩ := checked.higher
    have same : best = some held := (answers _ _ found).trans stored
    exact BitVec.lt_def.mp (lower held same)
  · exact (answers _ _ checked.validated.onDuty).symm
  · rw [store_of_calls rest]
    rfl

theorem rejected_exec (submits : request.isSubmission = true)
    (executed : Exec exec (handler config request) store calls reply after)
    (rejected : reply.isAccepted = false) : after = store := by
  have ended := outline_submission_result submits (executed.atResult (holds_handler config request))
  rw [rejected, if_neg (by simp), List.nil_append] at ended
  exact (exec_of_reads executed ended).1

theorem submission_frame (submits : request.isSubmission = true)
    (executed : Exec exec (handler config request) store calls reply after) :
    after.proposerDuties = store.proposerDuties ∧
      after.validatorRegistrations = store.validatorRegistrations ∧
      after.forkData = store.forkData := by
  cases accepted : reply.isAccepted with
  | true =>
      obtain ⟨bid, duty, found⟩ := accepted_exec executed accepted
      rw [found.stored]
      exact ⟨rfl, rfl, rfl⟩
  | false =>
      rw [rejected_exec submits executed accepted]
      exact ⟨rfl, rfl, rfl⟩

/-- A request that is not accepted files neither a bid nor a response. -/
theorem unfiled_of_not_accepted
    (executed : Exec exec (handler config request) store calls reply after)
    (rejected : reply.isAccepted = false) : ∀ record ∈ calls,
      (∀ slot bid, record.1 ≠ .storage (.setBestBid slot bid)) ∧
        ∀ proposer response, record.1 ≠ .storage (.setBlindedBlockResponse proposer response) := by
  intro record membership
  obtain ⟨front, later, split⟩ := List.append_of_mem membership
  have allowed := executed.atCall (holds_handler config request) split
  by_cases submits : request.isSubmission = true
  · have ended := outline_submission_result submits
      (executed.atResult (holds_handler config request))
    rw [rejected, if_neg (by simp), List.nil_append] at ended
    have read := ended record membership
    constructor
    · intro slot bid call
      rw [call] at read
      cases read
    · intro proposer response call
      rw [call] at read
      cases read
  · constructor
    · intro slot bid call
      rw [call] at allowed
      exact submits (outline_setBestBid allowed).1
    · intro proposer response call
      rw [call] at allowed
      exact submits (outline_setBlindedBlockResponse allowed).1

theorem unchanged_of_not_accepted
    (executed : Exec exec (handler config request) store calls reply after)
    (rejected : reply.isAccepted = false) :
    after.bestBidPerSlot = store.bestBidPerSlot ∧
      after.bestBidByBlockNumber = store.bestBidByBlockNumber ∧
      after.blindedBlockResp = store.blindedBlockResp := by
  have unfiled := unfiled_of_not_accepted executed rejected
  refine ⟨?_, ?_, ?_⟩
  · apply executed.view_of_unwritten bestBids_written
    intro record membership written write
    obtain ⟨slot, call, _⟩ := of_bestWrite? write
    exact (unfiled record membership).1 slot written.2 call
  · refine executed.view_of_unwritten bestBidNumbers_written
      fun record membership written write => ?_
    obtain ⟨slot, call, _⟩ := of_numberWrite? write
    exact (unfiled record membership).1 slot written.2 call
  · apply executed.view_of_unwritten responses_written
    intro record membership written write
    exact (unfiled record membership).2 written.1 written.2 (of_responseWrite? write)

theorem served_exec {slot : UInt64} {parentHash : B256} {pubkey : BlsPublicKey}
    {served : Versioned SignedHeader}
    (executed : Exec exec (handler config (.getHeader slot parentHash pubkey)) store calls
      (.getHeader (.ok served)) after) :
    after = store ∧ pubkey ∈ store.validatorRegistrations ∧
      ∃ bid, store.bestBidPerSlot.lookup ⟨slot, parentHash, pubkey⟩ = some bid ∧
        SignedHeader.tryFrom bid config.signer = .ok served.data := by
  obtain ⟨result, same, only, facts⟩ :=
    executed.atResult (holds_handler config (.getHeader slot parentHash pubkey))
  cases same
  obtain ⟨⟨registration, registered⟩, ⟨bid, best, signed⟩, _⟩ := facts served rfl
  obtain ⟨unchanged, answers⟩ := exec_of_reads executed only
  refine ⟨unchanged, ?_, bid, (answers _ _ best).symm, signed⟩
  exact Finmap.mem_of_lookup_eq_some (answers _ _ registered).symm

end Handlers

/-- The bid an entry of a history shows accepted. -/
def acceptedBid? (entry : Completed Calls Request Reply InMemoryStorage) : Option BidSubmission :=
  if entry.result.isAccepted then entry.request.submission? else none

/-- The bids accepted for a key, oldest first. -/
def acceptedFor (key : SlotHashKey) (history : RelayHistory) : List BidSubmission :=
  (history.filterMap acceptedBid?).filter fun bid => bid.key = key

theorem acceptedFor_concat (key : SlotHashKey) (history : RelayHistory)
    (entry : Completed Calls Request Reply InMemoryStorage) :
    acceptedFor key (history ++ [entry]) =
      acceptedFor key history ++ (acceptedBid? entry).toList.filter fun bid => bid.key = key := by
  cases found : acceptedBid? entry <;> simp [acceptedFor, found]

/-- Bids of strictly increasing value. -/
def Rising (bids : List BidSubmission) : Prop :=
  bids.Pairwise fun earlier later => earlier.value < later.value

omit [Crates] in
theorem Rising.concat {bids : List BidSubmission} (rising : Rising bids) {bid : BidSubmission}
    (higher : ∀ last, bids.getLast? = some last → last.value < bid.value) :
    Rising (bids ++ [bid]) := by
  refine List.pairwise_append.mpr ⟨rising, List.pairwise_singleton _ _, ?_⟩
  intro earlier membership final same
  rw [List.mem_singleton] at same
  subst same
  rcases List.eq_nil_or_concat bids with rfl | ⟨front, last, rfl⟩
  · cases membership
  rw [List.concat_eq_append] at membership rising higher
  have lastHigher := higher last (by simp)
  rcases List.mem_append.mp membership with inside | isLast
  · exact (List.pairwise_append.mp rising |>.2.2 earlier inside last (by simp)).trans lastHigher
  · rw [List.mem_singleton] at isLast
    subst isLast
    exact lastHigher

/-- The earliest of the bids with the largest value. -/
def FirstHighest (bids : List BidSubmission) (bid : BidSubmission) : Prop :=
  ∃ front back, bids = front ++ bid :: back ∧ (∀ other ∈ front, other.value < bid.value) ∧
    ∀ other ∈ back, other.value ≤ bid.value

omit [Crates] in
theorem Rising.firstHighest {bids : List BidSubmission} (rising : Rising bids)
    {bid : BidSubmission} (last : bids.getLast? = some bid) : FirstHighest bids bid := by
  obtain ⟨front, rfl⟩ := List.getLast?_eq_some_iff.mp last
  refine ⟨front, [], rfl, fun other membership => ?_, by simp⟩
  exact (List.pairwise_append.mp rising).2.2 other membership bid (by simp)

variable {history : RelayHistory} {store : InMemoryStorage}

/-- The stored best bid of a key is the last one accepted for it, and the bids
accepted for a key rise. -/
theorem bestBid_last (serial : SerialFrom config config.init history store) (key : SlotHashKey) :
    store.bestBidPerSlot.lookup key = (acceptedFor key history).getLast? ∧
      Rising (acceptedFor key history) := by
  induction serial with
  | start => exact ⟨rfl, List.Pairwise.nil⟩
  | @finish history store request calls reply after serial executed inductionHypothesis =>
      obtain ⟨best, rising⟩ := inductionHypothesis
      rw [acceptedFor_concat]
      cases accepted : reply.isAccepted with
      | false =>
          rw [(unchanged_of_not_accepted executed accepted).1, best]
          simpa [acceptedBid?, accepted] using rising
      | true =>
          obtain ⟨bid, duty, found⟩ := accepted_exec executed accepted
          have added : acceptedBid? ⟨request, store, calls, reply, after⟩ = some bid := by
            simp [acceptedBid?, accepted, found.carried]
          have inserted : after.bestBidPerSlot = store.bestBidPerSlot.insert bid.key bid := by
            rw [found.stored]
            rfl
          rw [inserted, added]
          by_cases own : bid.key = key
          · subst own
            simp only [Option.toList_some, decide_true, List.filter_cons_of_pos, List.filter_nil,
              Finmap.lookup_insert, List.getLast?_concat, true_and]
            apply rising.concat
            intro last isLast
            exact found.higher last (best.trans isLast)
          · simp only [Option.toList_some, own, decide_false, Bool.false_eq_true,
              not_false_eq_true, List.filter_cons_of_neg, List.filter_nil, List.append_nil]
            rw [Finmap.lookup_insert_of_ne _ (Ne.symm own)]
            exact ⟨best, rising⟩

/-- A header that shows a bid, signed by the relay. -/
structure ShowsBid (config : Config) (signed : SignedHeader) (bid : BidSubmission) : Prop where
  value : signed.message.value = bid.message.value
  header : signed.message.header = .ofPayload bid.executionPayload
  commitments : signed.message.blobKzgCommitments.toList =
    bid.blobsBundle.commitments.map Bytes48.asKzgCommitment
  pubkey : signed.message.pubkey = config.signer.publicKey
  signed : signed.signature.verify config.signer.publicKey
    (signingRoot signed.message config.forkData.computeBuilderDomain) = true

/-- The bids accepted for a key rise, and whenever a header is served it shows
the first highest bid accepted so far for its slot, parent hash and proposer. -/
theorem auction_serves_highest (serial : SerialFrom config config.init history store)
    (verifies : ∀ secretKey message,
      Crates.verify (Crates.sign secretKey message) message (Crates.skToPk secretKey) = true) :
    (∀ key, Rising (acceptedFor key history)) ∧
    ∀ earlier entry later slot parentHash pubkey served, history = earlier ++ entry :: later →
      entry.request = .getHeader slot parentHash pubkey →
      entry.result = .getHeader (.ok served) →
      ∃ bid, FirstHighest (acceptedFor ⟨slot, parentHash, pubkey⟩ earlier) bid ∧
        ShowsBid config served.data bid := by
  refine ⟨fun key => (bestBid_last serial key).2, ?_⟩
  intro earlier entry later slot parentHash pubkey served split request result
  have membership : entry ∈ history := by simp [split]
  have executed := serial.executed membership
  rw [request, result] at executed
  obtain ⟨_, _, bid, best, made⟩ := served_exec executed
  obtain ⟨last, rising⟩ := bestBid_last (serial.prefix_serial split) ⟨slot, parentHash, pubkey⟩
  obtain ⟨header, commitments, value, signer, signature⟩ := SignedHeader.of_tryFrom made
  refine ⟨bid, rising.firstHighest (last.symm.trans best), value, header, commitments, signer, ?_⟩
  rw [signature]
  exact config.signer.verify_sign verifies served.data.message

end Atomic

section Demo

open Demo

attribute [local instance] standIn

def outbid : RelayHistory × InMemoryStorage := serve [.postBids (bid 1 5), .postBids (bid 2 6)]

def headerAsked : Completed Calls Request Reply InMemoryStorage :=
  complete (.getHeader 1 (hash 1) (pubkey 3)) outbid.2

theorem demo_header_highest :
    ∃ highest, FirstHighest (acceptedFor ⟨1, hash 1, pubkey 3⟩ outbid.1) highest ∧
      ShowsBid config (signedHeader (bid 2 6)) highest :=
  (auction_serves_highest
      (complete_serial (serve_serial [.postBids (bid 1 5), .postBids (bid 2 6)])
        (.getHeader 1 (hash 1) (pubkey 3)))
      standIn_verify_sign).2
    outbid.1 headerAsked [] 1 (hash 1) (pubkey 3) ⟨.deneb, signedHeader (bid 2 6)⟩ rfl rfl
    (by decide +kernel)

end Demo

end MevRelay
