import MevRelay.Storage.InMemory

/-!
# The calls of the relay

The atomic calls that handlers make: those on the storage, and those to the
beacon node and the auth service.  The latter leave the storage alone and may
answer anything.
-/

namespace MevRelay

open Concurrent

structure KnownValidatorResponse where
  status : String

/-- Returns true if the validator is active. -/
def KnownValidatorResponse.isActive (validator : KnownValidatorResponse) : Bool :=
  decide ("active".toList <:+: validator.status.toList)

structure ProposerDutiesData where
  slot : UInt64
  pubkey : List UInt8
  validatorIndex : UInt64

inductive SubmissionType where
  | json
  | ssz
  deriving DecidableEq

inductive Call where
  | storage (c : StorageCall)
  | validateApiKey (apiKey : String)
  | getKnownValidator (pubkey : BlsPublicKey)
  | proposerDuties (epoch : UInt64)
  /-- Start a task that refreshes the duties. -/
  | spawnRefresh (head : HeadSlot)
  /-- Start a task that hands the block to the beacon node. -/
  | publishBlock (block : SignedBeaconBlockContent) (submissionType : SubmissionType)

abbrev Call.Response : Call → Type
  | .storage c => c.Response
  | .validateApiKey _ => Bool
  | .getKnownValidator _ => Option KnownValidatorResponse
  | .proposerDuties _ => Option (List ProposerDutiesData)
  | .spawnRefresh _ => Unit
  | .publishBlock _ _ => Unit

/-- The signature of the programs of the relay. -/
abbrev Calls : Signature := ⟨Call, Call.Response⟩

/-- What a call may answer and what it leaves in the store. -/
def exec : Semantics Calls InMemoryStorage
  | .storage c, store, answer, after => (answer, after) = c.apply store
  | .validateApiKey _, store, _, after => after = store
  | .getKnownValidator _, store, _, after => after = store
  | .proposerDuties _, store, _, after => after = store
  | .spawnRefresh _, store, _, after => after = store
  | .publishBlock _ _, store, _, after => after = store

@[simp]
theorem exec_storage {c : StorageCall} {store after : InMemoryStorage} {answer : c.Response} :
    exec (.storage c) store answer after ↔ answer = (c.apply store).1 ∧ after = (c.apply store).2 := by
  simp [exec, Prod.ext_iff]

/-- A storage operation with its answer. -/
abbrev answered (c : StorageCall) (answer : c.Response) : Record Calls := ⟨.storage c, answer⟩

/-- The operations that leave the storage as it is. -/
def StorageCall.isRead : StorageCall → Bool
  | .forkData | .readHeadSlot | .readPayloadAttributes | .emptyValidatorRegs
  | .readValidatorRegistration _ | .findDutyBySlot _ | .readProposerDuties
  | .isWhitelistedBuilder _ | .readBestBidByBlockNumber _ | .readBestBidBySlot _
  | .readBlindedBlockResponse _ | .readBestBid _ _ _ => true
  | _ => false

theorem StorageCall.apply_of_isRead {c : StorageCall} (read : c.isRead = true)
    (store : InMemoryStorage) : (c.apply store).2 = store := by
  cases c <;> first | rfl | cases read

def Call.isRead : Call → Bool
  | .storage c => c.isRead
  | _ => false

/-- Only reads of the storage so far. -/
def Reads (past : List (Record Calls)) : Prop := ∀ record ∈ past, record.1.isRead = true

@[simp]
theorem reads_nil : Reads [] := by
  intro record membership
  cases membership

theorem Reads.concat {past : List (Record Calls)} (reads : Reads past) {c : StorageCall}
    (read : c.isRead = true) (answer : c.Response) : Reads (past ++ [answered c answer]) := by
  intro record membership
  rcases List.mem_append.mp membership with earlier | last
  · exact reads record earlier
  · rw [List.mem_singleton] at last
    subst last
    exact read

/-- Reads that a program makes first answer from the store it starts in. -/
theorem answers_of_reads {Result : Type} {program : Program Calls Result}
    {store after : InMemoryStorage} {reads rest : List (Record Calls)} {result : Result}
    (executed : Exec exec program store (reads ++ rest) result after) (only : Reads reads) :
    (∀ c answer, answered c answer ∈ reads → answer = (c.apply store).1) ∧
      ∃ remaining, Exec exec remaining store rest result after := by
  induction reads generalizing program with
  | nil => exact ⟨by simp, program, executed⟩
  | cons record reads inductionHypothesis =>
      rw [List.cons_append] at executed
      cases executed with
      | @call c next _ answer middle _ _ _ first later =>
          have read := only _ List.mem_cons_self
          rcases c with c | _ | _ | _ | _ | _
          case storage =>
            obtain ⟨rfl, rfl⟩ := exec_storage.mp first
            rw [StorageCall.apply_of_isRead read] at later
            obtain ⟨answers, remaining⟩ := inductionHypothesis later
              fun record membership => only record (List.mem_cons_of_mem _ membership)
            refine ⟨fun c answer membership => ?_, remaining⟩
            rcases List.mem_cons.mp membership with same | inside
            · cases same
              rfl
            · exact answers c answer inside
          all_goals cases read

/-- What a call leaves of a store, whatever it answers. -/
def Call.leaves : Call → InMemoryStorage → InMemoryStorage
  | .storage c, store => (c.apply store).2
  | _, store => store

theorem exec_leaves {c : Call} {store after : InMemoryStorage} {answer : c.Response}
    (executed : exec c store answer after) : after = c.leaves store := by
  rcases c with c | _ | _ | _ | _ | _
  case storage => exact (exec_storage.mp executed).2
  all_goals exact executed

theorem store_of_calls {Result : Type} {program : Program Calls Result}
    {store after : InMemoryStorage} {calls : List (Record Calls)} {result : Result}
    (executed : Exec exec program store calls result after) :
    after = calls.foldl (fun store record => record.1.leaves store) store := by
  induction executed with
  | done => rfl
  | call first rest inductionHypothesis =>
      rw [inductionHypothesis, List.foldl_cons, exec_leaves first]

/-- A program that has only read leaves the store as it is, and was answered from it. -/
theorem exec_of_reads {Result : Type} {program : Program Calls Result}
    {store after : InMemoryStorage} {calls : List (Record Calls)} {result : Result}
    (executed : Exec exec program store calls result after) (only : Reads calls) :
    after = store ∧ ∀ c answer, answered c answer ∈ calls → answer = (c.apply store).1 := by
  rw [← List.append_nil calls] at executed
  obtain ⟨answers, remaining, rest⟩ := answers_of_reads executed only
  exact ⟨store_of_calls rest, answers⟩

@[simp]
theorem ends_storage {Result : Type} {c : StorageCall} {next : c.Response → Program Calls Result}
    {store : InMemoryStorage} {result : Result} :
    Ends exec (.call (.storage c) next) store result ↔
      Ends exec (next (c.apply store).1) (c.apply store).2 result := by
  simp

@[simp]
theorem yields_storage {Result : Type} {c : StorageCall}
    {next : c.Response → Program Calls Result} {store after : InMemoryStorage} {result : Result} :
    Yields exec (.call (.storage c) next) store result after ↔
      Yields exec (next (c.apply store).1) (c.apply store).2 result after := by
  simp

theorem exec_total (c : Call) (store : InMemoryStorage) : ∃ answer after, exec c store answer after := by
  rcases c with c | _ | _ | _ | _ | _
  case storage => exact ⟨_, _, exec_storage.mpr ⟨rfl, rfl⟩⟩
  case validateApiKey => exact ⟨false, store, rfl⟩
  case getKnownValidator | proposerDuties => exact ⟨none, store, rfl⟩
  all_goals exact ⟨(), store, rfl⟩

abbrev call (c : Call) : Program Calls c.Response := .call c .done

abbrev storage (c : StorageCall) : Program Calls c.Response := .call (.storage c) .done

/-- Retrieves and compares the current best bid for a given slot to the incoming
bid value.  Both submission paths make this comparison. -/
def isBidHigher (bid : BidTrace) : Program Calls Bool := do
  let currentBest ← storage (.readBestBid bid.slot bid.parentHash bid.proposerPubkey)
  match currentBest with
  | some currentBest => return decide (currentBest.message.value < bid.value)
  | none => return true

theorem isBidHigher_bind {Result : Type} (bid : BidTrace) (rest : Bool → Program Calls Result) :
    isBidHigher bid >>= rest =
      .call (.storage (.readBestBid bid.slot bid.parentHash bid.proposerPubkey))
        fun best : Option BidSubmission =>
          rest (best.all fun held => held.message.value < bid.value) := by
  simp only [isBidHigher, Program.call_bind]
  congr 1
  funext best
  cases best <;> rfl

end MevRelay
