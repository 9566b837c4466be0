import MevRelay.Relay.Auction
import MevRelay.Relay.Delivery
import MevRelay.Relay.Surroundings

/-!
# Redeeming a served header

With atomic handlers: what a blinded block over a served header gets, after any
number of further submissions.
-/

namespace MevRelay

open Concurrent

section Atomic

variable [Crates] {config : Config}

/-- The response an entry of a history files, for the proposer on duty for the
slot of the accepted bid. -/
def filing? (entry : Completed Calls Request Reply InMemoryStorage) :
    Option (BlsPublicKey × BlindedBlockResponse) := do
  let bid ← acceptedBid? entry
  let duty ← entry.before.findDutyBySlot bid.message.slot
  return (duty.pubkey, bid.toBlindedBlockResponse)

section Handlers

variable {store after : InMemoryStorage} {calls : List (Record Calls)} {reply : Reply}

theorem responses_exec {request : Request}
    (executed : Exec exec (handler config request) store calls reply after) :
    after.blindedBlockResp =
      replay store.blindedBlockResp (filing? ⟨request, store, calls, reply, after⟩).toList := by
  cases accepted : reply.isAccepted with
  | false =>
      rw [(unchanged_of_not_accepted executed accepted).2.2]
      simp [filing?, acceptedBid?, accepted]
  | true =>
      obtain ⟨bid, duty, found⟩ := accepted_exec executed accepted
      have filing : filing? ⟨request, store, calls, reply, after⟩ =
          some (duty.pubkey, bid.toBlindedBlockResponse) := by
        simp [filing?, acceptedBid?, accepted, found.carried, found.onDuty]
      rw [filing, found.stored]
      rfl

/-- A blinded block that passes all checks gets the response stored for the
proposer on duty, whatever header it was signed over. -/
theorem postBlindedBlocks_ends {block : SignedBlindedBlock} {duty : Validator}
    (onDuty : store.findDutyBySlot block.message.slot = some duty)
    (index : block.message.proposerIndex = duty.validatorIndex)
    (registered : duty.pubkey ∈ store.validatorRegistrations)
    (hashable : block.message.body.Hashable)
    (signed : block.signature.verify duty.pubkey
      (signingRoot block.message store.forkData.computeProposerDomain) = true)
    {result : Outcome PostBlindedBlockErr (Versioned BlindedBlockResponse)}
    (ends : Ends exec (Http.postBlindedBlocks block) store result) :
    result = match store.blindedBlockResp.lookup duty.pubkey with
      | some response => .ok ⟨.deneb, response⟩
      | none => .err .noBlockFromBlockHash := by
  obtain ⟨registration, found⟩ := Finmap.mem_iff.mp registered
  simp only [Http.postBlindedBlocks, Program.call_bind, Program.done_bind, Program.pure_eq_done,
    ends_storage, StorageCall.apply, onDuty, index, found, hashable, signed, ne_eq,
    not_true_eq_false, Option.isNone_some, Bool.not_true, Bool.false_eq_true, if_false] at ends
  cases held : store.blindedBlockResp.lookup duty.pubkey with
  | none => simpa [held] using ends
  | some response =>
      simp only [held, ends_call_iff, ends_done_iff] at ends
      obtain ⟨_, _, _, _, _, _, same⟩ := ends
      exact same

end Handlers

variable {history : RelayHistory} {store : InMemoryStorage}

theorem response_last (serial : SerialFrom config config.init history store)
    (proposer : BlsPublicKey) :
    store.blindedBlockResp.lookup proposer = lastWrite proposer (history.filterMap filing?) := by
  have replayed : store.blindedBlockResp = replay ∅ (history.filterMap filing?) := by
    induction serial with
    | start => rfl
    | finish serial executed inductionHypothesis =>
        rw [responses_exec executed, inductionHypothesis, List.filterMap_append]
        simp only [replay, ← List.foldl_append]
        congr 2
  rw [replayed, lookup_replay, Finmap.lookup_empty, Option.or_none]

theorem forkData_kept (serial : SerialFrom config config.init history store) :
    store.forkData = config.forkData := by
  obtain ⟨trace, run, _⟩ := serial.run
  exact (run_frame run).2.1

/-- A header is served for a stored bid to the proposer on duty for its slot;
then come submissions only; then a block over that header, correctly signed
with the index of the duty, is sent back.  What is signed is the root of the
block, so the hasher takes its lists. -/
structure Redemption (config : Config) (earlier submissions : RelayHistory)
    (offer redemption : Completed Calls Request Reply InMemoryStorage) (parentHash : B256)
    (duty : Validator) (bid : BidSubmission) (served : Versioned SignedHeader)
    (block : SignedBlindedBlock) : Prop where
  serial : ∃ store, SerialFrom config config.init
    (earlier ++ offer :: submissions ++ [redemption]) store
  offered : offer.request = .getHeader block.message.slot parentHash duty.pubkey
  answered : offer.result = .getHeader (.ok served)
  stored : offer.before.bestBidPerSlot.lookup
    ⟨block.message.slot, parentHash, duty.pubkey⟩ = some bid
  onDuty : offer.before.findDutyBySlot block.message.slot = some duty
  submissions : ∀ entry ∈ submissions, entry.request.isSubmission = true
  redeems : redemption.request = .postBlindedBlocks block
  header : block.header = served.data.message.header
  index : block.message.proposerIndex = duty.validatorIndex
  hashable : block.message.body.Hashable
  signed : block.signature.verify duty.pubkey
    (signingRoot block.message config.forkData.computeProposerDomain) = true

/-- Submissions leave the duty, the registration and the fork data that the
block is checked against. -/
theorem Redemption.checked_against {earlier submissions : RelayHistory}
    {offer redemption : Completed Calls Request Reply InMemoryStorage} {parentHash : B256}
    {duty : Validator} {bid : BidSubmission} {served : Versioned SignedHeader}
    {block : SignedBlindedBlock}
    (redeemed : Redemption config earlier submissions offer redemption parentHash duty bid served
      block) :
    redemption.before.findDutyBySlot block.message.slot = some duty ∧
      duty.pubkey ∈ redemption.before.validatorRegistrations ∧
      redemption.before.forkData = config.forkData := by
  obtain ⟨_, serial⟩ := redeemed.serial
  have before := serial.of_concat.1
  have split : earlier ++ offer :: submissions = (earlier ++ [offer]) ++ submissions := by simp
  have inside : ∀ entry ∈ offer :: submissions,
      entry ∈ earlier ++ offer :: submissions ++ [redemption] := by
    intro entry membership
    exact List.mem_append_left _ (List.mem_append_right _ membership)
  have offering := serial.executed (inside offer List.mem_cons_self)
  rw [redeemed.offered, redeemed.answered] at offering
  obtain ⟨kept, registered, _⟩ := served_exec offering
  obtain ⟨_, reached, same⟩ := Serial.unchanged_over
    (fun store => (store.proposerDuties, store.validatorRegistrations, store.forkData))
    (split ▸ before) fun entry membership => by
      obtain ⟨duties, registrations, forks⟩ := submission_frame
        (redeemed.submissions entry membership)
        (serial.executed (inside entry (List.mem_cons_of_mem _ membership)))
      simp only [duties, registrations, forks]
  obtain ⟨earlierSerial, rfl⟩ := reached.of_concat
  rw [kept] at same
  obtain ⟨duties, registrations, forks⟩ : _ ∧ _ ∧ _ := by simpa only [Prod.mk.injEq] using same
  refine ⟨?_, ?_, ?_⟩
  · rw [InMemoryStorage.findDutyBySlot, duties]
    exact redeemed.onDuty
  · rwa [registrations]
  · rw [forks, forkData_kept earlierSerial]

/-- The submission that was accepted last with this proposer on duty for its
slot carries the payload and blobs of the bid. -/
def LastFiledFor (history : RelayHistory) (proposer : BlsPublicKey) (bid : BidSubmission) : Prop :=
  lastWrite proposer (history.filterMap filing?) = some bid.toBlindedBlockResponse

/-- A served header is redeemed for the payload and blobs of its bid exactly
when no other payload was filed last for the proposer. -/
theorem served_header_redeemable_iff {earlier submissions : RelayHistory}
    {offer redemption : Completed Calls Request Reply InMemoryStorage} {parentHash : B256}
    {duty : Validator} {bid : BidSubmission} {served : Versioned SignedHeader}
    {block : SignedBlindedBlock}
    (redeemed : Redemption config earlier submissions offer redemption parentHash duty bid served
      block) :
    redemption.result = .postBlindedBlocks (.ok ⟨.deneb, bid.toBlindedBlockResponse⟩) ↔
      LastFiledFor (earlier ++ offer :: submissions) duty.pubkey bid := by
  obtain ⟨_, serial⟩ := redeemed.serial
  obtain ⟨before, _⟩ := serial.of_concat
  have executed := serial.executed (List.mem_append_right _ (List.mem_singleton_self redemption))
  rw [redeemed.redeems] at executed
  obtain ⟨result, ends, replied⟩ := ends_map_iff.mp ⟨_, _, executed⟩
  obtain ⟨onDuty, registered, forks⟩ := redeemed.checked_against
  have decided : result = match redemption.before.blindedBlockResp.lookup duty.pubkey with
      | some response => .ok ⟨.deneb, response⟩
      | none => .err .noBlockFromBlockHash :=
    postBlindedBlocks_ends onDuty redeemed.index registered redeemed.hashable
      (forks ▸ redeemed.signed) ends
  rw [response_last before] at decided
  rw [replied, decided, LastFiledFor]
  cases last : lastWrite duty.pubkey ((earlier ++ offer :: submissions).filterMap filing?) with
  | none => simp
  | some response => simp

end Atomic

section Spoiling

open Demo

attribute [local instance] standIn

/-- A header is served for a bid; then the same builder submits a lower bid for
another parent, and the proposer sends back a block over the header. -/
def offered : RelayHistory × InMemoryStorage := serve [.postBids (bid 5 6)]

def offer : Completed Calls Request Reply InMemoryStorage :=
  complete (.getHeader 1 (hash 1) duty.pubkey) offered.2

def spoiler : Completed Calls Request Reply InMemoryStorage :=
  complete (.postBids (bidWith 1 2 8 .empty)) offer.after

def redemption : Completed Calls Request Reply InMemoryStorage :=
  complete (.postBlindedBlocks (blindedBlock (.ofPayload (payload 6)))) spoiler.after

theorem spoiled_redemption :
    Redemption config offered.1 [spoiler] offer redemption (hash 1) duty (bid 5 6)
      ⟨.deneb, signedHeader (bid 5 6)⟩ (blindedBlock (.ofPayload (payload 6))) where
  serial := by
    have served : SerialFrom config config.init (offered.1 ++ [offer] ++ [spoiler] ++ [redemption])
        redemption.after :=
      complete_serial (complete_serial (complete_serial (serve_serial _) _) _) _
    exact ⟨redemption.after, by simpa using served⟩
  offered := rfl
  answered := by decide +kernel
  stored := by decide +kernel
  onDuty := by decide +kernel
  submissions := by
    intro entry membership
    rw [List.mem_singleton] at membership
    subst membership
    rfl
  redeems := rfl
  header := rfl
  index := rfl
  hashable := by decide +kernel
  signed := verify_signWith standIn_verify_sign _ _ _

theorem spoiled_redeemable_iff :
    redemption.result = .postBlindedBlocks (.ok ⟨.deneb, (bid 5 6).toBlindedBlockResponse⟩) ↔
      LastFiledFor (offered.1 ++ offer :: [spoiler]) duty.pubkey (bid 5 6) :=
  served_header_redeemable_iff spoiled_redemption

/-- The block over the header of payload 6 is unblinded with payload 8. -/
theorem served_header_spoiled :
    Redemption config offered.1 [spoiler] offer redemption (hash 1) duty (bid 5 6)
        ⟨.deneb, signedHeader (bid 5 6)⟩ (blindedBlock (.ofPayload (payload 6))) ∧
      redemption.result ≠
        .postBlindedBlocks (.ok ⟨.deneb, (bid 5 6).toBlindedBlockResponse⟩) :=
  ⟨spoiled_redemption, by decide +kernel⟩

end Spoiling

end MevRelay
