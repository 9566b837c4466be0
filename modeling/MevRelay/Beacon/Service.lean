import MevRelay.Concurrent.Mailbox
import MevRelay.Storage.Calls
import MevRelay.Beacon.Stream

/-!
# The beacon service

The relay talks to the beacon node through a service.  A handle sends it a
command and waits for the future that the service makes of it; the handle then
drives the future itself.  The service only takes commands and replies; it
makes no request to the beacon node.
-/

namespace MevRelay

open Concurrent

structure BeaconSyncStatus where
  headSlot : UInt64
  isSyncing : Bool

structure BeaconSyncStatusResponse where
  data : BeaconSyncStatus

structure CurrentFork where
  currentVersion : String

structure ForkDataResp where
  genesisTime : String
  genesisValidatorsRoot : String
  fork : CurrentFork

structure GetForkResponse where
  data : ForkDataResp

/-- The methods of the beacon node's interface that go through the service. -/
inductive BeaconMethod where
  | syncStatus
  | getForkData
  | getKnownValidator
  | proposerDuties
  | publishBlock
  deriving DecidableEq

abbrev BeaconMethod.Output : BeaconMethod → Type
  | .syncStatus => BeaconSyncStatusResponse
  | .getForkData => GetForkResponse
  | .getKnownValidator => KnownValidatorResponse
  | .proposerDuties => List ProposerDutiesData
  | .publishBlock => Unit

/-- A future that calls a method of the interface when it is awaited. -/
inductive BoxedFuture : BeaconMethod → Type where
  | syncStatus : BoxedFuture .syncStatus
  | getForkData : BoxedFuture .getForkData
  | getKnownValidator (pubkey : BlsPublicKey) : BoxedFuture .getKnownValidator
  | proposerDuties (epoch : UInt64) : BoxedFuture .proposerDuties
  | publishBlock (block : SignedBeaconBlockContent) (submissionType : SubmissionType) :
      BoxedFuture .publishBlock

/-- Commands that can be sent to the beacon service, without the sender for the reply. -/
inductive BeaconCommands where
  | syncStatus
  | forkData
  | proposerDuties (epoch : UInt64)
  | knownValidator (pubkey : BlsPublicKey)
  | publishBlock (block : SignedBeaconBlockContent) (submissionType : SubmissionType)
  deriving DecidableEq

/-- The type of the future that a command asks for. -/
abbrev BeaconCommands.method : BeaconCommands → BeaconMethod
  | .syncStatus => .syncStatus
  | .forkData => .getForkData
  | .proposerDuties _ => .proposerDuties
  | .knownValidator _ => .getKnownValidator
  | .publishBlock _ _ => .publishBlock

namespace BeaconService

/-- Wraps the sync status method of the beacon node api into a boxed future. -/
def syncStatus : BoxedFuture .syncStatus := .syncStatus

def getForkData : BoxedFuture .getForkData := .getForkData

def getKnownValidator (pubkey : BlsPublicKey) : BoxedFuture .getKnownValidator :=
  .getKnownValidator pubkey

/-- Wraps the proposer duties method of the beacon node api into a boxed future. -/
def proposerDuties (epoch : UInt64) : BoxedFuture .proposerDuties := .proposerDuties epoch

def publishBlock (block : SignedBeaconBlockContent) (submissionType : SubmissionType) :
    BoxedFuture .publishBlock :=
  .publishBlock block submissionType

/-- The future that each command is answered with. -/
def future : (command : BeaconCommands) → BoxedFuture command.method
  | .syncStatus => syncStatus
  | .knownValidator pubkey => getKnownValidator pubkey
  | .forkData => getForkData
  | .proposerDuties epoch => proposerDuties epoch
  | .publishBlock block submissionType => publishBlock block submissionType

end BeaconService

abbrev beaconProtocol : Protocol where
  Kind := BeaconMethod
  Body := BeaconCommands
  Job := BoxedFuture
  kind := BeaconCommands.method
  respond := BeaconService.future

/-- The calls of handles and of the service: those on the channels between
them, and driving a future to its end. -/
inductive BeaconCall where
  | channel (c : MailboxCall beaconProtocol)
  | drive (method : BeaconMethod) (future : BoxedFuture method)

abbrev BeaconCall.Response : BeaconCall → Type
  | .channel c => c.Response
  | .drive method _ => Except String method.Output

abbrev BeaconCalls : Signature := ⟨BeaconCall, BeaconCall.Response⟩

/-- Why a handle fails: the service is gone, or the beacon node's interface reports an error. -/
inductive HandleError where
  | brokenSendChannel
  | brokenRecvChannel
  | report (message : String)
  deriving DecidableEq

namespace BeaconHandle

/-- Send a command to the service, wait for its future and drive it. -/
def request (command : BeaconCommands) :
    Program BeaconCalls (Except HandleError command.method.Output) :=
  .call (.channel (.send command)) fun
    | none => .done (.error .brokenSendChannel)
    | some receiver =>
        .call (.channel (.receive command.method receiver)) fun
          | none => .done (.error .brokenRecvChannel)
          | some future => .call (.drive command.method future) fun reply =>
              .done (reply.mapError .report)

/-- Sends a command to the beacon service to request the sync status of the beacon node. -/
def syncStatus : Program BeaconCalls (Except HandleError BeaconSyncStatusResponse) :=
  request .syncStatus

def getForkData : Program BeaconCalls (Except HandleError GetForkResponse) :=
  request .forkData

def getKnownValidator (pubkey : BlsPublicKey) :
    Program BeaconCalls (Except HandleError KnownValidatorResponse) :=
  request (.knownValidator pubkey)

def proposerDuties (epoch : UInt64) :
    Program BeaconCalls (Except HandleError (List ProposerDutiesData)) :=
  request (.proposerDuties epoch)

def publishBlock (block : SignedBeaconBlockContent) (submissionType : SubmissionType) :
    Program BeaconCalls (Except HandleError Unit) :=
  request (.publishBlock block submissionType)

end BeaconHandle

/-- Take commands and answer them until there is none.  The runtime may make
the channel answer that there is none when a task has run for long, after any
number of commands.  The service keeps a sender itself, so that the channel
never ends. -/
def BeaconService.poll : Nat → Program BeaconCalls (Poll Unit)
  | 0 => .done .pending
  | budget + 1 => .call (.channel .next) fun
      | none => .done .pending
      | some command =>
          .call (.channel (.reply command (BeaconService.future command.body))) fun _ =>
            poll budget

end MevRelay
