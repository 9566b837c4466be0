import MevRelay.Relay.Traces
import MevRelay.Relay.Surroundings

/-!
# Racing submissions

A submission compares itself with the best bid in one call and files itself in
two later ones.  The results say which interleavings of these calls lose a
better bid, and which leave the two stores that a bid writes in disagreement.
-/

namespace MevRelay

open Concurrent

/-- The place of the best bid of one key: looked at by the comparison and
overwritten by the filing of a bid. -/
def bestBidRegister (key : SlotHashKey) : Register exec BidSubmission where
  held store := store.bestBidPerSlot.lookup key
  looks c := c = .storage (.readBestBid key.slot key.hash key.validator)
  put? c :=
    match c with
    | .storage (.setBestBid slot bid) =>
        if (⟨slot, bid.message.parentHash, bid.message.proposerPubkey⟩ : SlotHashKey) = key
        then some bid else none
    | _ => none
  not_put_of_looks := by
    rintro c rfl
    rfl
  held_after := by
    intro c store answer after executed
    rw [bestBids_written c store answer after executed, lookup_replay]
    congr 1
    rcases c with c | _ | _ | _ | _ | _
    case storage => cases c <;> simp [bestWrite?, lastWrite, List.filter_cons]; split <;> rfl
    all_goals rfl

theorem of_bestBidRegister_put? {key : SlotHashKey} {c : Call} {bid : BidSubmission}
    (put : (bestBidRegister key).put? c = some bid) :
    ∃ slot, c = .storage (.setBestBid slot bid) ∧
      key = ⟨slot, bid.message.parentHash, bid.message.proposerPubkey⟩ := by
  simp only [bestBidRegister] at put
  split at put
  case h_1 slot found =>
    split at put
    case isTrue own =>
      cases put
      exact ⟨slot, rfl, own.symm⟩
    case isFalse => cases put
  case h_2 => cases put

theorem bestBidRegister_put?_filed (bid : BidSubmission) :
    (bestBidRegister bid.key).put? (.storage (.setBestBid bid.message.slot bid)) = some bid :=
  if_pos rfl

section BestBids

variable [Crates] {config : Config} {trace : List RelayEvent} {world : RelayWorld}

/-- Every bid that is filed was compared before, by the same task. -/
theorem bestBid_checked {init : InMemoryStorage} (run : RunFrom config init trace world)
    (key : SlotHashKey) : (bestBidRegister key).Checked BidSubmission.value trace := by
  intro front put later bid split stored
  obtain ⟨slot, call, rfl⟩ := of_bestBidRegister_put? stored
  obtain ⟨_, _, _, rfl, _, checked⟩ := setBestBid_event run split call
  obtain ⟨best, found, lower⟩ := checked.higher
  obtain ⟨middle, shorter⟩ := run.prefix_run split
  obtain ⟨look, membership, own, looks, answer⟩ := read_event shorter found
  refine ⟨look, membership, own, looks, ?_⟩
  change worth _ (look.before.bestBidPerSlot.lookup _) < _
  rw [show look.before.bestBidPerSlot.lookup _ = best from answer.symm]
  cases best with
  | none => exact WithBot.bot_lt_coe _
  | some held => exact WithBot.coe_lt_coe.mpr (BitVec.lt_def.mp (lower held rfl))

/-- The bid stored under a key is the most valuable one accepted for it. -/
structure HoldsLargest (world : RelayWorld) (key : SlotHashKey) : Prop where
  accepted : ∀ best, world.store.bestBidPerSlot.lookup key = some best →
    ∃ task, AcceptedBy world task best ∧ best.key = key
  largest : ∀ task bid, AcceptedBy world task bid → bid.key = key →
    ∃ best, world.store.bestBidPerSlot.lookup key = some best ∧ bid.value ≤ best.value

theorem holdsLargest_of_neverLoses (run : RunFrom config config.init trace world)
    (finished : Finished world) {key : SlotHashKey}
    (kept : (bestBidRegister key).NeverLoses BidSubmission.value trace) :
    HoldsLargest world key where
  accepted := by
    intro best stored
    obtain ⟨event, membership, write⟩ := run.event_of_lookup bestBids_written rfl stored
    obtain ⟨slot, call, rfl⟩ := of_bestWrite? write
    obtain ⟨rfl, _, accepted⟩ := acceptedBy_of_filed run finished membership call
    exact ⟨event.task, accepted, rfl⟩
  largest := by
    rintro task bid ⟨request, reply, returned, accepted, carried⟩ rfl
    obtain ⟨reads, other, duty, made, _, same, _⟩ := filed_of_accepted run returned accepted
    rw [carried] at same
    cases same
    obtain ⟨front, put, later, split, _, record, _⟩ := past_split made
    have call : put.call = .storage (.setBestBid bid.message.slot bid) := congrArg Sigma.fst record
    have membership : put ∈ trace := by simp [split]
    have worth := Register.value_le_worth_of_neverLoses run kept membership
      (call ▸ bestBidRegister_put?_filed bid)
    change _ ≤ Concurrent.worth _ (world.store.bestBidPerSlot.lookup _) at worth
    cases stored : world.store.bestBidPerSlot.lookup bid.key with
    | none =>
        rw [stored] at worth
        exact absurd worth (by simp)
    | some best =>
        rw [stored] at worth
        exact ⟨best, rfl, WithBot.coe_le_coe.mp worth⟩

/-- No best bid is lost in an interleaving, and the largest accepted one is
stored at its end, exactly when no submission is overtaken by a better one
between its comparison and its filing. -/
theorem bestBids_kept_iff (run : RunFrom config config.init trace world) :
    ((∀ key, (bestBidRegister key).NeverLoses BidSubmission.value trace) ∧
      (Finished world → ∀ key, HoldsLargest world key)) ↔
    ∀ key, ¬ (bestBidRegister key).Overtaken BidSubmission.value trace := by
  have register := fun key =>
    Register.neverLoses_iff_not_overtaken run (bestBid_checked run key)
  constructor
  · intro kept key
    exact (register key).mp (kept.1 key)
  · intro clear
    have kept := fun key => (register key).mpr (clear key)
    exact ⟨kept, fun finished key => holdsLargest_of_neverLoses run finished (kept key)⟩

end BestBids

section Overtaking

open Demo

attribute [local instance] standIn

/-- The lower of two bids is compared first and filed last. -/
def overtaken : Played Calls Request Reply InMemoryStorage :=
  play [.postBids (bid 1 5), .postBids (bid 2 6)]
    (2 :: List.replicate 8 3 ++ List.replicate 7 2)

theorem overtaken_run : RunFrom config config.init overtaken.trace overtaken.world :=
  playFrom_run _ _ _

theorem overtaken_kept_iff :
    ((∀ key, (bestBidRegister key).NeverLoses BidSubmission.value overtaken.trace) ∧
      (Finished overtaken.world → ∀ key, HoldsLargest overtaken.world key)) ↔
    ∀ key, ¬ (bestBidRegister key).Overtaken BidSubmission.value overtaken.trace :=
  bestBids_kept_iff overtaken_run

theorem overtaken_finished : Finished overtaken.world :=
  finished_of_returned (by decide +kernel)

/-- Both bids are accepted, the higher one is stored, and then the lower one. -/
theorem higher_bid_lost :
    RunFrom config config.init overtaken.trace overtaken.world ∧ Finished overtaken.world ∧
      ¬ (bestBidRegister (bid 2 6).key).NeverLoses BidSubmission.value overtaken.trace ∧
      ¬ HoldsLargest overtaken.world (bid 2 6).key := by
  have stored : overtaken.world.store.bestBidPerSlot.lookup (bid 2 6).key = some (bid 1 5) := by
    decide +kernel
  have accepted : AcceptedBy overtaken.world 3 (bid 2 6) :=
    ⟨.postBids (bid 2 6), .postBids (.ok ()), World.returned?_eq_some.mp (by decide +kernel),
      rfl, rfl⟩
  refine ⟨overtaken_run, overtaken_finished, ?_, ?_⟩
  · intro kept
    have loses : ∃ event ∈ overtaken.trace,
        ¬ worth BidSubmission.value ((bestBidRegister (bid 2 6).key).held event.before) ≤
          worth BidSubmission.value ((bestBidRegister (bid 2 6).key).held event.after) := by
      decide +kernel
    obtain ⟨event, membership, lost⟩ := loses
    exact lost (kept event membership)
  · intro holds
    obtain ⟨best, held, larger⟩ := holds.largest 3 (bid 2 6) accepted rfl
    rw [stored] at held
    cases held
    exact absurd larger (by decide +kernel)

end Overtaking

section Filings

def Call.filesBid : Call → Bool
  | .storage (.setBestBid _ _) => true
  | _ => false

def Call.filesResponse : Call → Bool
  | .storage (.setBlindedBlockResponse _ _) => true
  | _ => false

theorem Call.filesBid_eq_true {c : Call} (files : c.filesBid = true) :
    ∃ slot bid, c = .storage (.setBestBid slot bid) := by
  rcases c with c | _ | _ | _ | _ | _
  case storage => cases c <;> first | exact ⟨_, _, rfl⟩ | cases files
  all_goals cases files

theorem Call.filesResponse_eq_true {c : Call} (files : c.filesResponse = true) :
    ∃ proposer response, c = .storage (.setBlindedBlockResponse proposer response) := by
  rcases c with c | _ | _ | _ | _ | _
  case storage => cases c <;> first | exact ⟨_, _, rfl⟩ | cases files
  all_goals cases files

/-- The last event of a trace whose call is of the given kind. -/
def lastTo (kind : Call → Bool) (trace : List RelayEvent) : Option RelayEvent :=
  (trace.filter fun event => kind event.call).getLast?

theorem lastTo_eq_some {kind : Call → Bool} {front later : List RelayEvent} {event : RelayEvent}
    (own : kind event.call = true) (others : ∀ other ∈ later, kind other.call = false) :
    lastTo kind (front ++ event :: later) = some event := by
  have none_later : later.filter (fun other => kind other.call) = [] :=
    List.filter_eq_nil_iff.mpr fun other membership => by simp [others other membership]
  simp [lastTo, own, none_later]

/-- Where the calls of a kind all write under one key, the last of them is the
last write to it. -/
theorem lastTo_of_written {Key Value : Type} [DecidableEq Key] {key : Key}
    {kind : Call → Bool} {write? : Record Calls → Option (Key × Value)} {trace : List RelayEvent}
    (kinds : ∀ record write, write? record = some write → kind record.1 = true)
    (own : ∀ event ∈ trace, kind event.call = true →
      ∃ value, write? event.record = some (key, value))
    (made : ∃ event ∈ trace, kind event.call = true) :
    ∃ event ∈ trace, ∃ value, lastTo kind trace = some event ∧
      write? event.record = some (key, value) ∧
      lastWrite key (writesOf write? trace) = some value := by
  have written : lastWrite key (writesOf write? trace) ≠ none := by
    rw [Ne, lastWrite_eq_none_iff]
    intro others
    obtain ⟨event, membership, files⟩ := made
    obtain ⟨value, write⟩ := own event membership files
    exact others _ (mem_writesOf.mpr ⟨event, membership, write⟩) rfl
  obtain ⟨value, last⟩ := Option.ne_none_iff_exists'.mp written
  obtain ⟨front, event, later, rfl, write, others⟩ := lastWrite_event last
  refine ⟨event, by simp, value, lastTo_eq_some (kinds _ _ write) ?_, write, last⟩
  intro other membership
  by_contra files
  obtain ⟨_, otherWrite⟩ :=
    own other (by simp [membership]) (Bool.eq_true_of_not_eq_false files)
  exact others other membership _ otherWrite rfl

/-- The submission that files its bid last and the one that files its response
last carry the same payload and blobs. -/
def LastFilersAgree [Crates] (trace : List RelayEvent) : Prop :=
  ∀ filer responder bid other, lastTo Call.filesBid trace = some filer →
    lastTo Call.filesResponse trace = some responder →
    filer.request.submission? = some bid → responder.request.submission? = some other →
    bid.toBlindedBlockResponse = other.toBlindedBlockResponse

end Filings

section Agreement

variable [Crates] {config : Config} {trace : List RelayEvent} {world : RelayWorld}

/-- Submissions only, all of them returned, and the accepted ones all for one
slot, one parent hash and the proposer on duty for that slot. -/
structure SameAuction (init : InMemoryStorage) (world : RelayWorld) (slot : UInt64)
    (parentHash : B256) (duty : Validator) : Prop where
  onDuty : init.findDutyBySlot slot = some duty
  submissions : ∀ task ∈ world.tasks, task.request.isSubmission = true
  finished : Finished world
  sameKey : ∀ task bid, AcceptedBy world task bid → bid.key = ⟨slot, parentHash, duty.pubkey⟩

variable {init : InMemoryStorage} {slot : UInt64} {parentHash : B256} {duty : Validator}

theorem SameAuction.duties_before (auction : SameAuction init world slot parentHash duty)
    (run : RunFrom config init trace world) {event : RelayEvent} (membership : event ∈ trace) :
    event.before.proposerDuties = init.proposerDuties := by
  refine (run.unchanged_in InMemoryStorage.proposerDuties ?_).2 event membership
  intro event membership
  obtain ⟨front, later, split⟩ := List.append_of_mem membership
  obtain ⟨program, found⟩ := run.event_task membership
  have submits := auction.submissions _ (List.mem_of_getElem? found)
  have allowed := run.outline_atCall (holds_handler config) split
  have frame := outline_submission_frame submits allowed (run.executed membership)
  rw [frame]

theorem SameAuction.filed_key (auction : SameAuction init world slot parentHash duty)
    (run : RunFrom config init trace world) {event : RelayEvent} (membership : event ∈ trace)
    (files : event.call.filesBid = true) :
    ∃ bid, bestWrite? event.record = some (⟨slot, parentHash, duty.pubkey⟩, bid) ∧
      event.request.submission? = some bid := by
  obtain ⟨filedSlot, bid, call⟩ := Call.filesBid_eq_true files
  obtain ⟨rfl, carried, accepted⟩ := acceptedBy_of_filed run auction.finished membership call
  have own := auction.sameKey event.task bid accepted
  refine ⟨bid, ?_, carried⟩
  simp only [bestWrite?, Event.record, call]
  rw [← own]
  rfl

theorem SameAuction.responded_key (auction : SameAuction init world slot parentHash duty)
    (run : RunFrom config init trace world) {event : RelayEvent} (membership : event ∈ trace)
    (files : event.call.filesResponse = true) :
    ∃ bid, responseWrite? event.record = some (duty.pubkey, bid.toBlindedBlockResponse) ∧
      event.request.submission? = some bid := by
  obtain ⟨proposer, response, call⟩ := Call.filesResponse_eq_true files
  obtain ⟨front, later, split⟩ := List.append_of_mem membership
  obtain ⟨_, reads, bid, found, made, _, carried, checked, rfl, rfl⟩ :=
    setBlindedBlockResponse_event run split call
  obtain ⟨reply, returned, accepted⟩ := accepted_of_responded run membership call
  have own := auction.sameKey event.task bid ⟨_, reply, returned, accepted, carried⟩
  obtain ⟨middle, shorter⟩ := run.prefix_run split
  have dutyRead : answered (.findDutyBySlot bid.message.slot) (some found) ∈
      past event.task front := by
    rw [made]
    exact List.mem_append_left _ checked.validated.onDuty
  obtain ⟨read, inside, _, _, answer⟩ := read_event shorter dutyRead
  have earlier : read ∈ trace := by simp [split, inside]
  have unchanged := auction.duties_before run earlier
  have same : some found = some duty := by
    calc some found = read.before.findDutyBySlot bid.message.slot := answer
      _ = init.findDutyBySlot slot := by
        rw [InMemoryStorage.findDutyBySlot, unchanged, show bid.message.slot = slot from
          congrArg SlotHashKey.slot own, InMemoryStorage.findDutyBySlot]
      _ = some duty := auction.onDuty
  cases same
  refine ⟨bid, ?_, carried⟩
  simp only [responseWrite?, Event.record, call]

/-- An accepted submission has made both writes. -/
theorem files_of_accepted (run : RunFrom config init trace world)
    (contested : ∃ task bid, AcceptedBy world task bid) :
    (∃ event ∈ trace, event.call.filesBid = true) ∧
      ∃ event ∈ trace, event.call.filesResponse = true := by
  obtain ⟨task, bid, request, reply, returned, accepted, _⟩ := contested
  obtain ⟨reads, bid, duty, made, _⟩ := filed_of_accepted run returned accepted
  have first : filed bid ∈ past task trace := by simp [made]
  have second : responded bid duty ∈ past task trace := by simp [made]
  obtain ⟨put, putInside, _, putRecord⟩ := mem_past.mp first
  obtain ⟨answer, answerInside, _, answerRecord⟩ := mem_past.mp second
  exact ⟨⟨put, putInside, congrArg (fun record => Call.filesBid record.1) putRecord⟩,
    answer, answerInside, congrArg (fun record => Call.filesResponse record.1) answerRecord⟩

theorem SameAuction.best_last (auction : SameAuction init world slot parentHash duty)
    (run : RunFrom config init trace world) (contested : ∃ task bid, AcceptedBy world task bid) :
    ∃ filer bid, lastTo Call.filesBid trace = some filer ∧
      filer.request.submission? = some bid ∧
      world.store.bestBidPerSlot.lookup ⟨slot, parentHash, duty.pubkey⟩ = some bid := by
  have kinds : ∀ record write, bestWrite? record = some write →
      Call.filesBid record.1 = true := by
    rintro record ⟨key, bid⟩ write
    obtain ⟨_, call, _⟩ := of_bestWrite? write
    exact congrArg Call.filesBid call
  obtain ⟨filer, inside, bid, last, write, lastWritten⟩ := lastTo_of_written kinds
    (fun event membership files => (auction.filed_key run membership files).imp fun _ => And.left)
    (files_of_accepted run contested).1
  obtain ⟨other, own, carried⟩ :=
    auction.filed_key run inside (List.mem_filter.mp (List.mem_of_getLast? last)).2
  rw [write] at own
  cases own
  refine ⟨filer, bid, last, carried, ?_⟩
  rw [run.view_eq_replay bestBids_written, lookup_replay, lastWritten, Option.some_or]

theorem SameAuction.response_last (auction : SameAuction init world slot parentHash duty)
    (run : RunFrom config init trace world) (contested : ∃ task bid, AcceptedBy world task bid) :
    ∃ responder bid, lastTo Call.filesResponse trace = some responder ∧
      responder.request.submission? = some bid ∧
      world.store.blindedBlockResp.lookup duty.pubkey = some bid.toBlindedBlockResponse := by
  have kinds : ∀ record write, responseWrite? record = some write →
      Call.filesResponse record.1 = true := by
    rintro record ⟨proposer, response⟩ write
    exact congrArg Call.filesResponse (of_responseWrite? write)
  obtain ⟨responder, inside, response, last, write, lastWritten⟩ := lastTo_of_written kinds
    (fun event membership files => (auction.responded_key run membership files).imp' _
      fun _ => And.left)
    (files_of_accepted run contested).2
  obtain ⟨bid, own, carried⟩ :=
    auction.responded_key run inside (List.mem_filter.mp (List.mem_of_getLast? last)).2
  rw [write] at own
  cases own
  refine ⟨responder, bid, last, carried, ?_⟩
  rw [run.view_eq_replay responses_written, lookup_replay, lastWritten, Option.some_or]

/-- After a race for one slot, parent hash and proposer the stored response is
that of the stored best bid exactly when the submission that filed its bid last
and the one that filed its response last agree. -/
theorem stores_agree_iff (run : RunFrom config init trace world)
    (auction : SameAuction init world slot parentHash duty)
    (contested : ∃ task bid, AcceptedBy world task bid) :
    (∃ bid, world.store.bestBidPerSlot.lookup ⟨slot, parentHash, duty.pubkey⟩ = some bid ∧
      world.store.blindedBlockResp.lookup duty.pubkey = some bid.toBlindedBlockResponse) ↔
    LastFilersAgree trace := by
  obtain ⟨filer, best, lastFiler, carried, stored⟩ := auction.best_last run contested
  obtain ⟨responder, other, lastResponder, otherCarried, answer⟩ :=
    auction.response_last run contested
  rw [stored, answer]
  constructor
  · rintro ⟨bid, same, agree⟩ filer' responder' bid' other' isFiler isResponder filed responded
    rw [lastFiler] at isFiler
    rw [lastResponder] at isResponder
    cases isFiler
    cases isResponder
    rw [carried] at filed
    rw [otherCarried] at responded
    cases filed
    cases responded
    cases same
    exact (Option.some.inj agree).symm
  · intro agree
    have same := agree filer responder best other lastFiler lastResponder carried otherCarried
    exact ⟨best, rfl, by rw [same]⟩

end Agreement

section Crossing

open Demo

attribute [local instance] standIn

/-- A bid is filed, a higher one is filed with its response, and then the
response of the first. -/
def crossed : Played Calls Request Reply InMemoryStorage :=
  playFrom (serve []).2 [.postBids (bid 1 5), .postBids (bid 2 6)]
    (List.replicate 7 0 ++ List.replicate 8 1 ++ [0])

theorem crossed_run : RunFrom config (serve []).2 crossed.trace crossed.world :=
  playFrom_run _ _ _

theorem crossed_auction :
    SameAuction (serve []).2 crossed.world 1 (hash 1) duty where
  onDuty := by decide +kernel
  submissions := by decide +kernel
  finished := finished_of_returned (by decide +kernel)
  sameKey := by
    rintro task accepted ⟨request, reply, returned, _, carried⟩
    have keys : ∀ task ∈ crossed.world.tasks, ∀ accepted ∈ task.request.submission?,
        accepted.key = ⟨1, hash 1, duty.pubkey⟩ := by decide +kernel
    exact keys _ (List.mem_of_getElem? returned) accepted carried

theorem crossed_contested : ∃ task accepted, AcceptedBy crossed.world task accepted :=
  ⟨0, bid 1 5, .postBids (bid 1 5), .postBids (.ok ()),
    World.returned?_eq_some.mp (by decide +kernel), rfl, rfl⟩

theorem crossed_agree_iff :
    (∃ best, crossed.world.store.bestBidPerSlot.lookup ⟨1, hash 1, duty.pubkey⟩ = some best ∧
      crossed.world.store.blindedBlockResp.lookup duty.pubkey = some best.toBlindedBlockResponse) ↔
    LastFilersAgree crossed.trace :=
  stores_agree_iff crossed_run crossed_auction crossed_contested

/-- The best bid is the second, and the response is that of the first. -/
theorem crossed_stores_disagree :
    RunFrom config (serve []).2 crossed.trace crossed.world ∧
      SameAuction (serve []).2 crossed.world 1 (hash 1) duty ∧
      (∃ task accepted, AcceptedBy crossed.world task accepted) ∧
      ¬ ∃ best, crossed.world.store.bestBidPerSlot.lookup ⟨1, hash 1, duty.pubkey⟩ = some best ∧
        crossed.world.store.blindedBlockResp.lookup duty.pubkey =
          some best.toBlindedBlockResponse := by
  refine ⟨crossed_run, crossed_auction, crossed_contested, ?_⟩
  rintro ⟨best, stored, answer⟩
  have second : crossed.world.store.bestBidPerSlot.lookup ⟨1, hash 1, duty.pubkey⟩ =
      some (bid 2 6) := by decide +kernel
  have first : crossed.world.store.blindedBlockResp.lookup duty.pubkey =
      some (bid 1 5).toBlindedBlockResponse := by decide +kernel
  obtain rfl : bid 2 6 = best := Option.some.inj (second.symm.trans stored)
  have same := Option.some.inj (first.symm.trans answer)
  exact absurd (congrArg (fun response => response.executionPayload.blockHash) same)
    (by decide +kernel)

end Crossing

end MevRelay
