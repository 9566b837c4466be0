import MevRelay.Relay.Submissions

/-!
# Outlines of the handlers

What each handler knows when it makes a call and when it answers, in terms of
its earlier calls.  The handlers that only react to events file nothing.
-/

namespace MevRelay

open Concurrent

/-- The calls that file bids, responses, registrations or deliveries. -/
def Call.files : Call → Bool
  | .storage (.setBestBid _ _) | .storage (.setBlindedBlockResponse _ _)
  | .storage (.setValidatorRegistrations _) | .storage (.setDeliveredBlocks _)
  | .publishBlock _ _ => true
  | _ => false

/-- What a call is made for, apart from those that read the storage. -/
inductive CallKind where
  | read
  | bid
  | registration
  | delivery
  | head
  | attributes
  | duties
  deriving DecidableEq

def Call.kind : Call → CallKind
  | .storage (.setBestBid _ _) | .storage (.setBlindedBlockResponse _ _) => .bid
  | .validateApiKey _ | .getKnownValidator _
  | .storage (.setValidatorRegistrations _) => .registration
  | .publishBlock _ _ | .storage (.setDeliveredBlocks _) => .delivery
  | .storage (.setHeadSlot _) | .spawnRefresh _ => .head
  | .storage (.recordRelayedBlock _) | .storage (.writePayloadAttributes _) => .attributes
  | .proposerDuties _ | .storage (.setProposerDuties _) => .duties
  | .storage _ => .read

theorem Call.kind_of_isRead {c : Call} (read : c.isRead = true) : c.kind = .read := by
  rcases c with c | _ | _ | _ | _ | _
  case storage => cases c <;> first | rfl | cases read
  all_goals cases read

/-- The calls that a request is there for. -/
def Request.kind : Request → CallKind
  | .submitBlock _ | .postBids _ => .bid
  | .postValidators _ _ => .registration
  | .postBlindedBlocks _ => .delivery
  | .getHeader _ _ _ | .getBids _ | .getValidators => .read
  | .headEvent _ => .head
  | .payloadAttributesEvent _ => .attributes
  | .refreshDuties _ => .duties

/-- Outlines of programs that only read and make calls of one kind. -/
def kindOutline {Result : Type} (kind : CallKind) : Outline Calls Result where
  atCall _ c := c.kind = .read ∨ c.kind = kind
  atResult _ _ := True

/-- The answers about known validators, with the keys asked for. -/
def knownValidators (past : List (Record Calls)) :
    List (BlsPublicKey × Option KnownValidatorResponse) :=
  past.filterMap fun
    | ⟨.getKnownValidator pubkey, answer⟩ => some (pubkey, answer)
    | _ => none

/-- Outlines of handlers that file nothing. -/
def quietOutline {Result : Type} : Outline Calls Result where
  atCall _ c := c.files = false
  atResult _ _ := True

/-- Outlines of handlers that only read. -/
def readOutline {Result : Type} : Outline Calls Result where
  atCall past c := Reads past ∧ c.isRead = true
  atResult past _ := Reads past

variable [Crates]

/-- The entries of a batch that are active and correctly signed, given what
the beacon node knows about the validator of each entry. -/
def validEntries (domain : Hash256) (registrations : List ValidatorRegistration)
    (known : List (BlsPublicKey × Option KnownValidatorResponse)) :
    List (BlsPublicKey × ValidatorRegistration) :=
  ((registrations.zip known).filter fun entry => Http.validEntry domain entry.1 entry.2.2).map
    fun entry => (entry.1.message.pubkey, entry.1)

/-- The entries of a batch seen so far are collected, and nothing but them. -/
structure Collected (past : List (Record Calls)) (apiKey : String) (forks : ForkDatas)
    (registrations : List ValidatorRegistration) (collected : ValidatorRegistrations) : Prop where
  authorised : (⟨.validateApiKey apiKey, true⟩ : Record Calls) ∈ past
  forkData : answered .forkData forks ∈ past
  asked : (knownValidators past).map Prod.fst = registrations.map fun entry => entry.message.pubkey
  entries : collected = replay ∅
    (validEntries forks.computeBuilderDomain registrations (knownValidators past))

/-- The outline of the route that registers validators. -/
def registrationOutline {Result : Type} (apiKey : String)
    (registrations : List ValidatorRegistration) : Outline Calls Result where
  atCall past c :=
    match c with
    | .storage (.setValidatorRegistrations collected) =>
        ∃ forks, Collected past apiKey forks registrations collected
    | c => c.files = false
  atResult _ _ := True

/-- What the route for headers has found when it serves one. -/
structure Served (past : List (Record Calls)) (signer : BlsSigner) (slot : UInt64)
    (parentHash : B256) (pubkey : BlsPublicKey) (served : Versioned SignedHeader) : Prop where
  registered : ∃ registration, answered (.readValidatorRegistration pubkey) (some registration) ∈ past
  bid : ∃ bid, answered (.readBestBid slot parentHash pubkey) (some bid) ∈ past ∧
    SignedHeader.tryFrom bid signer = .ok served.data
  version : served.version = .deneb

/-- The outline of the route that serves headers. -/
def headerOutline (signer : BlsSigner) (slot : UInt64) (parentHash : B256)
    (pubkey : BlsPublicKey) : Outline Calls (Outcome GetHeaderError (Versioned SignedHeader)) where
  atCall past c := Reads past ∧ c.isRead = true
  atResult past result := Reads past ∧
    ∀ served, result = .ok served → Served past signer slot parentHash pubkey served

/-- What the route for blinded blocks has checked when it looks for the response. -/
structure Authorised (past : List (Record Calls)) (block : SignedBlindedBlock)
    (duty : Validator) : Prop where
  onDuty : answered (.findDutyBySlot block.message.slot) (some duty) ∈ past
  index : duty.validatorIndex = block.message.proposerIndex
  registered : ∃ registration,
    answered (.readValidatorRegistration duty.pubkey) (some registration) ∈ past
  hashable : block.message.body.Hashable
  signed : ∃ forks, answered .forkData forks ∈ past ∧
    block.signature.verify duty.pubkey (signingRoot block.message forks.computeProposerDomain) = true

/-- The one lookup of a response comes last, after every check. -/
def LookedUp (past : List (Record Calls)) (block : SignedBlindedBlock) (duty : Validator)
    (response : BlindedBlockResponse) : Prop :=
  ∃ checks, past = checks ++ [answered (.readBlindedBlockResponse duty.pubkey) (some response)] ∧
    Reads checks ∧ Authorised checks block duty ∧
    ∀ record ∈ checks, ∀ proposer, record.1 ≠ .storage (.readBlindedBlockResponse proposer)

/-- The block that a response unblinds. -/
def SignedBlindedBlock.unblind (block : SignedBlindedBlock) (response : BlindedBlockResponse) :
    SignedBeaconBlockContent :=
  .new response.executionPayload block.message block.signature response.blobsBundle

/-- The call that hands the unblinded block to the beacon node. -/
abbrev published (block : SignedBlindedBlock) (response : BlindedBlockResponse) : Record Calls :=
  ⟨.publishBlock (block.unblind response) .ssz, ()⟩

/-- The outline of the route that takes blinded blocks. -/
def deliveryOutline (block : SignedBlindedBlock) :
    Outline Calls (Outcome PostBlindedBlockErr (Versioned BlindedBlockResponse)) where
  atCall past c :=
    match c with
    | .publishBlock content submissionType =>
        ∃ duty response, LookedUp past block duty response ∧ content = block.unblind response ∧
          submissionType = .ssz
    | .storage (.setDeliveredBlocks blockHash) =>
        ∃ reads duty response, LookedUp reads block duty response ∧
          past = reads ++ [published block response] ∧
          blockHash = response.executionPayload.blockHash
    | c => Reads past ∧ c.isRead = true
  atResult past result :=
    match result with
    | .ok served =>
        ∃ reads duty, LookedUp reads block duty served.data ∧ served.version = .deneb ∧
          past = reads ++ [published block served.data,
            answered (.setDeliveredBlocks served.data.executionPayload.blockHash) ()]
    | .err _ | .panicked => Reads past

/-- The outline of every handler. -/
def outline (config : Config) : Request → Outline Calls Reply
  | .submitBlock request =>
      (submissionOutline config.forkData request.submission? fun outcome =>
        (Reply.submitBlock outcome).isAccepted).map Reply.submitBlock
  | .postBids submission =>
      (submissionOutline config.forkData (some submission) fun result =>
        (Reply.postBids result).isAccepted).map Reply.postBids
  | .postValidators apiKey registrations =>
      (registrationOutline apiKey registrations).map Reply.postValidators
  | .getHeader slot parentHash pubkey =>
      (headerOutline config.signer slot parentHash pubkey).map Reply.getHeader
  | .postBlindedBlocks block => (deliveryOutline block).map Reply.postBlindedBlocks
  | .getBids _ => readOutline.map Reply.getBids
  | .getValidators => readOutline.map Reply.getValidators
  | .headEvent _ => quietOutline.map fun _ : Unit => Reply.handled
  | .payloadAttributesEvent _ => quietOutline.map fun _ : Unit => Reply.handled
  | .refreshDuties _ => quietOutline.map Reply.refreshed

section Deliveries

theorem holds_postBlindedBlocks (block : SignedBlindedBlock) :
    (deliveryOutline block).Holds [] (Http.postBlindedBlocks block) := by
  have allowed : ReadsAllowed (deliveryOutline block) := by
    intro past c reads read
    cases c <;> first | exact ⟨reads, rfl⟩ | cases read
  simp only [Http.postBlindedBlocks, Program.call_bind, Program.done_bind, Program.pure_eq_done]
  apply holds_read allowed reads_nil rfl
  rintro (_ | duty) reads
  · exact reads
  by_cases index : duty.validatorIndex = block.message.proposerIndex
  case neg =>
    simp only [ne_eq, index, not_false_eq_true, if_true]
    exact reads
  simp only [ne_eq, index, not_true_eq_false, if_false]
  apply holds_read allowed reads rfl
  intro forkData reads
  apply holds_read allowed reads rfl
  rintro (_ | registration) reads
  · exact reads
  by_cases hashable : block.message.body.Hashable
  case neg =>
    simp only [hashable, not_false_eq_true, if_true]
    exact reads
  simp only [hashable, not_true_eq_false, if_false]
  cases verified : block.signature.verify duty.entry.message.pubkey
      (signingRoot block.message (ForkDatas.computeProposerDomain forkData)) with
  | false =>
      exact reads
  | true =>
  simp only [Option.isNone_some, Bool.not_true, Bool.false_eq_true, if_false]
  have checked := reads
  apply holds_read allowed reads rfl
  rintro (_ | response) reads
  · exact reads
  have lookedUp := show LookedUp _ block duty response from ⟨_, rfl, checked, {
    onDuty := by simp
    index := index
    registered := ⟨registration, by simp⟩
    hashable := hashable
    signed := ⟨forkData, by simp, verified⟩ }, by simp⟩
  refine ⟨⟨duty, response, lookedUp, rfl, rfl⟩, fun _ => ⟨⟨_, duty, response, lookedUp, rfl, rfl⟩, ?_⟩⟩
  intro _
  exact ⟨_, duty, lookedUp, rfl, by simp [SignedBlindedBlock.unblind]⟩

end Deliveries

section Headers

theorem holds_getHeader (signer : BlsSigner) (slot : UInt64) (parentHash : B256)
    (pubkey : BlsPublicKey) :
    (headerOutline signer slot parentHash pubkey).Holds []
      (Http.getHeader signer slot parentHash pubkey) := by
  have allowed : ReadsAllowed (headerOutline signer slot parentHash pubkey) :=
    fun past c reads read => ⟨reads, read⟩
  simp only [Http.getHeader, Program.call_bind, Program.done_bind, Program.pure_eq_done]
  apply holds_read allowed reads_nil rfl
  rintro (_ | registration) reads
  · exact ⟨reads, by rintro served ⟨⟩⟩
  simp only [Option.isNone_some, Bool.false_eq_true, if_false]
  apply holds_read allowed reads rfl
  intro head reads
  cases next : HeadSlot.isNextSlot head slot with
  | false => exact ⟨reads, by rintro served ⟨⟩⟩
  | true =>
  apply holds_read allowed reads rfl
  rintro (_ | bid) reads
  · exact ⟨reads, by rintro served ⟨⟩⟩
  cases signed : SignedHeader.tryFrom bid signer with
  | err _ | panicked =>
      simp only [signed]
      exact ⟨reads, by rintro served ⟨⟩⟩
  | ok signedHeader =>
  simp only [signed]
  refine ⟨reads, ?_⟩
  rintro served ⟨⟩
  exact {
    registered := ⟨registration, by simp⟩
    bid := ⟨bid, by simp, signed⟩
    version := rfl }

end Headers

section Registrations

omit [Crates] in
theorem knownValidators_append (first second : List (Record Calls)) :
    knownValidators (first ++ second) = knownValidators first ++ knownValidators second := by
  simp [knownValidators]

theorem validEntries_concat (domain : Hash256) (registrations : List ValidatorRegistration)
    (known : List (BlsPublicKey × Option KnownValidatorResponse))
    (same : registrations.length = known.length) (registration : ValidatorRegistration)
    (answer : BlsPublicKey × Option KnownValidatorResponse) :
    validEntries domain (registrations ++ [registration]) (known ++ [answer]) =
      validEntries domain registrations known ++
        if Http.validEntry domain registration answer.2
        then [(registration.message.pubkey, registration)] else [] := by
  rw [validEntries, List.zip_append same, List.filter_append, List.map_append]
  congr 1
  simp only [List.zip_cons_cons, List.zip_nil_right, List.filter_cons, List.filter_nil]
  split <;> rfl

theorem Collected.concat {past : List (Record Calls)} {apiKey : String} {forks : ForkDatas}
    {earlier : List ValidatorRegistration} {toRegister : ValidatorRegistrations}
    (collected : Collected past apiKey forks earlier toRegister)
    (registration : ValidatorRegistration) (known : Option KnownValidatorResponse) :
    Collected (past ++ [⟨.getKnownValidator registration.message.pubkey, known⟩]) apiKey forks
      (earlier ++ [registration])
      (if Http.validEntry forks.computeBuilderDomain registration known
        then toRegister.insert registration.message.pubkey registration else toRegister) where
  authorised := List.mem_append_left _ collected.authorised
  forkData := List.mem_append_left _ collected.forkData
  asked := by
    rw [knownValidators_append, List.map_append, List.map_append, collected.asked]
    rfl
  entries := by
    have same : earlier.length = (knownValidators past).length := by
      simpa using congrArg List.length collected.asked.symm
    rw [knownValidators_append, show knownValidators
      [(⟨.getKnownValidator registration.message.pubkey, known⟩ : Record Calls)] =
        [(registration.message.pubkey, known)] from rfl, validEntries_concat _ _ _ same]
    cases valid : Http.validEntry forks.computeBuilderDomain registration known with
    | true =>
        simp only [if_true]
        rw [replay_concat, collected.entries]
    | false =>
        simp only [Bool.false_eq_true, if_false]
        rw [List.append_nil, collected.entries]

/-- The loop over a batch: whatever follows it goes on from the whole batch. -/
theorem holds_collectRegistrations {outline : Outline Calls ValidatorRegistrations}
    {apiKey : String} {forks : ForkDatas} {rest earlier : List ValidatorRegistration}
    {past : List (Record Calls)} {toRegister : ValidatorRegistrations}
    (asks : ∀ past pubkey, outline.atCall past (.getKnownValidator pubkey))
    (ends : ∀ past collected, Collected past apiKey forks (earlier ++ rest) collected →
      outline.atResult past collected)
    (collected : Collected past apiKey forks earlier toRegister) :
    outline.Holds past
      (Http.collectRegistrations forks.computeBuilderDomain rest toRegister) := by
  induction rest generalizing earlier past toRegister with
  | nil => exact ends past toRegister (by simpa using collected)
  | cons registration rest inductionHypothesis =>
      rw [Http.collectRegistrations_cons]
      refine ⟨asks _ _, fun known => ?_⟩
      refine inductionHypothesis ?_ (collected.concat registration known)
      simpa using ends

theorem holds_postValidators (apiKey : String) (registrations : List ValidatorRegistration) :
    (registrationOutline apiKey registrations).Holds []
      (Http.postValidators apiKey registrations) := by
  simp only [Http.postValidators, Program.call_bind, Program.done_bind, Program.pure_eq_done]
  refine ⟨rfl, ?_⟩
  rintro (_ | _)
  · trivial
  refine ⟨rfl, fun forks => ?_⟩
  have start : Collected [⟨.validateApiKey apiKey, true⟩, answered .forkData forks] apiKey forks
      [] ∅ := {
    authorised := by simp
    forkData := by simp
    asked := rfl
    entries := rfl }
  exact Outline.Holds.bind (holds_collectRegistrations (fun _ _ => rfl)
    (fun past collected complete => ⟨⟨forks, complete⟩, fun _ => trivial⟩) start)

end Registrations

section Readers

omit [Crates]

theorem holds_getBids (params : QueryParams) : readOutline.Holds [] (Http.getBids params) := by
  have allowed : ReadsAllowed (@readOutline (List BidSubmission)) :=
    fun past c reads read => ⟨reads, read⟩
  rcases params with ⟨_ | slot, _ | blockNumber⟩
  · exact reads_nil
  · apply holds_read allowed reads_nil rfl
    rintro (_ | bid) reads <;> exact reads
  · apply holds_read allowed reads_nil rfl
    rintro (_ | bid) reads <;> exact reads
  · apply holds_read allowed reads_nil rfl
    rintro (_ | bid) reads
    · apply holds_read allowed reads rfl
      rintro (_ | bid) reads <;> exact reads
    · exact reads

theorem holds_getValidators : readOutline.Holds [] Http.getValidators := by
  have allowed : ReadsAllowed (@readOutline (List Validator)) :=
    fun past c reads read => ⟨reads, read⟩
  apply holds_read allowed reads_nil rfl
  intro _ reads
  exact reads

end Readers

section Events

omit [Crates] in
theorem kinds_onHeadEvent (slot : UInt64) : (kindOutline .head).Holds [] (onHeadEvent slot) := by
  refine ⟨.inr rfl, fun _ => ?_⟩
  by_cases first : slot % 32 = 0
  · simp only [Program.pure_eq_done, first, if_true]
    exact ⟨.inr rfl, fun _ => trivial⟩
  · simp only [Program.pure_eq_done, first, if_false]
    trivial

omit [Crates] in
theorem kinds_onPayloadAttributes (attrs : PayloadAttributes) :
    (kindOutline .attributes).Holds [] (onPayloadAttributes attrs) :=
  ⟨.inr rfl, fun _ => ⟨.inr rfl, fun _ => trivial⟩⟩

theorem kinds_registeredDuties (duties : List ProposerDutiesData) :
    ∀ past validators, (kindOutline .duties).Holds past (registeredDuties duties validators) := by
  induction duties with
  | nil => exact fun _ _ => trivial
  | cons duty rest inductionHypothesis =>
      intro past validators
      unfold registeredDuties
      cases (BlsPublicKey.ofBytes duty.pubkey : Outcome Unit BlsPublicKey) with
      | panicked => trivial
      | err error => trivial
      | ok pubkey =>
          refine ⟨.inl rfl, ?_⟩
          rintro (_ | registration) <;> exact inductionHypothesis _ _

theorem kinds_intoDuties (duties : List ProposerDutiesData) (past : List (Record Calls)) :
    (kindOutline .duties).Holds past (intoDuties duties) := by
  refine ⟨.inl rfl, ?_⟩
  rintro (_ | _)
  · exact kinds_registeredDuties duties _ _
  · trivial

theorem kinds_refreshDuties (slotsPerEpoch : UInt64) (head : HeadSlot) :
    (kindOutline .duties).Holds [] (refreshDuties slotsPerEpoch head) := by
  simp only [refreshDuties, Program.call_bind, Program.done_bind, Program.pure_eq_done]
  cases (head.epoch slotsPerEpoch : Outcome Unit UInt64) with
  | panicked => trivial
  | err error => trivial
  | ok epoch =>
  refine ⟨.inr rfl, fun dutiesEpoch => ⟨.inr rfl, fun dutiesNextEpoch => ?_⟩⟩
  cases dutiesEpoch with
  | none => trivial
  | some current =>
  cases dutiesNextEpoch with
  | none => trivial
  | some next =>
  dsimp only
  refine Outline.Holds.bind ((kinds_intoDuties (current ++ next) _).mono (fun _ _ kind => kind) ?_)
  rintro past (duties | error | _) _
  · by_cases empty : duties = []
    · simp only [empty, if_true]
      trivial
    · simp only [empty, if_false]
      exact ⟨.inr rfl, fun _ => trivial⟩
  · trivial
  · trivial

omit [Crates] in
/-- Reads and calls of the given kinds file nothing. -/
theorem files_eq_false {c : Call} {kind : CallKind} (own : c.kind = .read ∨ c.kind = kind)
    (quiet : kind = .head ∨ kind = .attributes ∨ kind = .duties) : c.files = false := by
  have different : c.kind ≠ .bid ∧ c.kind ≠ .registration ∧ c.kind ≠ .delivery := by
    rcases own with same | same <;> rcases quiet with rfl | rfl | rfl <;> simp [same]
  rcases c with c | _ | _ | _ | _ | _
  case storage => cases c <;> first | rfl | simp [Call.kind] at different
  all_goals first | rfl | simp [Call.kind] at different

omit [Crates] in
theorem quiet_of_kinds {Result : Type} {kind : CallKind} {program : Program Calls Result}
    (quiet : kind = .head ∨ kind = .attributes ∨ kind = .duties)
    (kinds : (kindOutline kind).Holds [] program) : quietOutline.Holds [] program :=
  kinds.mono (fun _ _ own => files_eq_false own quiet) fun _ _ _ => trivial

end Events

theorem holds_handler (config : Config) (request : Request) :
    (outline config request).Holds [] (handler config request) := by
  cases request with
  | submitBlock request => exact (holds_submitBlock config.service request).map _
  | postBids submission => exact (holds_postBids config.forkData submission).map _
  | postValidators apiKey registrations => exact (holds_postValidators apiKey registrations).map _
  | getHeader slot parentHash pubkey =>
      exact (holds_getHeader config.signer slot parentHash pubkey).map _
  | postBlindedBlocks block => exact (holds_postBlindedBlocks block).map _
  | getBids params => exact (holds_getBids params).map _
  | getValidators => exact holds_getValidators.map _
  | headEvent slot => exact (quiet_of_kinds (.inl rfl) (kinds_onHeadEvent slot)).map _
  | payloadAttributesEvent attrs =>
      exact (quiet_of_kinds (.inr (.inl rfl)) (kinds_onPayloadAttributes attrs)).map _
  | refreshDuties head =>
      exact (quiet_of_kinds (.inr (.inr rfl)) (kinds_refreshDuties config.slotsPerEpoch head)).map _

section Kinds

theorem kinds_collectRegistrations (domain : Hash256) (registrations : List ValidatorRegistration) :
    ∀ past toRegister, (kindOutline .registration).Holds past
      (Http.collectRegistrations domain registrations toRegister) := by
  induction registrations with
  | nil => exact fun _ _ => trivial
  | cons registration rest inductionHypothesis =>
      intro past toRegister
      rw [Http.collectRegistrations_cons]
      exact ⟨.inr rfl, fun known => inductionHypothesis _ _⟩

theorem kinds_postValidators (apiKey : String) (registrations : List ValidatorRegistration) :
    (kindOutline .registration).Holds [] (Http.postValidators apiKey registrations) := by
  simp only [Http.postValidators, Program.call_bind, Program.done_bind, Program.pure_eq_done]
  refine ⟨.inr rfl, ?_⟩
  rintro (_ | _)
  · trivial
  refine ⟨.inl rfl, fun forks => Outline.Holds.bind ?_⟩
  exact (kinds_collectRegistrations _ registrations _ _).mono (fun _ _ own => own)
    (fun _ _ _ => ⟨.inr rfl, fun _ => trivial⟩)

theorem kind_of_submissionCall {forks : ForkDatas} {submission? : Option BidSubmission}
    {past : List (Record Calls)} {c : Call} (allowed : submissionCall forks submission? past c) :
    c.kind = .read ∨ c.kind = .bid := by
  simp only [submissionCall] at allowed
  split at allowed
  · exact .inr rfl
  · exact .inr rfl
  · exact .inl (Call.kind_of_isRead allowed.2)

theorem kind_of_deliveryCall {block : SignedBlindedBlock} {past : List (Record Calls)} {c : Call}
    (allowed : (deliveryOutline block).atCall past c) : c.kind = .read ∨ c.kind = .delivery := by
  simp only [deliveryOutline] at allowed
  split at allowed
  · exact .inr rfl
  · exact .inr rfl
  · exact .inl (Call.kind_of_isRead allowed.2)

/-- A handler reads the storage and otherwise makes only calls of its own kind. -/
theorem holds_kinds (config : Config) (request : Request) :
    (kindOutline request.kind).Holds [] (handler config request) := by
  have derived : (∀ past c, (outline config request).atCall past c →
      c.kind = .read ∨ c.kind = request.kind) →
      (kindOutline request.kind).Holds [] (handler config request) :=
    fun calls => (holds_handler config request).mono calls fun _ _ _ => trivial
  have renamed : ∀ {Result : Type} {kind : CallKind} {program : Program Calls Result}
      (rename : Result → Reply), (kindOutline kind).Holds [] program →
      (kindOutline kind).Holds [] (rename <$> program) :=
    fun rename holds => (holds.map rename).mono (fun _ _ own => own) fun _ _ _ => trivial
  cases request with
  | submitBlock _ | postBids _ => exact derived fun _ _ allowed => kind_of_submissionCall allowed
  | postBlindedBlocks _ => exact derived fun _ _ allowed => kind_of_deliveryCall allowed
  | getHeader _ _ _ | getBids _ | getValidators =>
      apply derived
      intro _ _ allowed
      exact .inl (Call.kind_of_isRead allowed.2)
  | postValidators apiKey registrations => exact renamed _ (kinds_postValidators apiKey registrations)
  | headEvent slot => exact renamed _ (kinds_onHeadEvent slot)
  | payloadAttributesEvent attrs => exact renamed _ (kinds_onPayloadAttributes attrs)
  | refreshDuties head => exact renamed _ (kinds_refreshDuties config.slotsPerEpoch head)

end Kinds

end MevRelay
