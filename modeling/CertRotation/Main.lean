import CertRotation.CommandLine.Reader
import CertRotation.Daemon.Ending
import CertRotation.Daemon.Log
import CertRotation.Daemon.Plan
import CertRotation.PrivateKey.Generation
import Std.Async.Signal
import Std.Time.DateTime.Timestamp

/-!
The program. It answers the requests of managers and of file programs from the system: its clock,
its random numbers and its disk. Versions and links of the directory store are kept in memory; on
disk stand the files that readers reach through them, each replaced as a whole.
-/

namespace CertRotation.Main

def systemNow : IO Instant := do
  let now ← Std.Time.Timestamp.now
  return .ofNanoseconds now.toNanosecondsSinceUnixEpoch.val

def randomOctets (count : Nat) : IO Octets := do
  return (← IO.getRandomBytes count.toUSize).toList

/-- A fresh random number below `2 ^ 64`. -/
def randomWord : IO Nat := Octets.value <$> randomOctets 8

/-- Makes a call on disk and keeps its fault. -/
def guarded {α : Type} (action : IO α) : IO (Except FileFault α) := do
  match ← action.toBaseIO with
  | .ok value => return .ok value
  | .error (.noFileOrDirectory ..) => return .error .notFound
  | .error _ => return .error .notDirectory

/-- Makes a call to the file system on disk, which has no links for this program. -/
def onDisk : (operation : FileOperation) → IO (Except FileFault operation.Value)
  | .makeDirectories path => guarded (IO.FS.createDirAll path)
  | .write path contents => guarded (IO.FS.writeBinFile path ⟨contents.toArray⟩)
  | .makePrivate path => guarded (IO.setAccessRights path ⟨⟨true, true, false⟩, {}, {}⟩)
  | .removeFile path => guarded (IO.FS.removeFile path)
  | .removeTree path => guarded (IO.FS.removeDirAll path)
  | .rename source target => guarded (IO.FS.rename source target)
  | .probe path => guarded (discard (IO.FS.realPath path))
  | .read path => guarded ((·.toList) <$> IO.FS.readBinFile path)
  | .readLink _ => return .error .notLink
  | .makeLink _ _ => return .error .exists

def workOnDisk {α : Type} (work : FileWork α) : IO (Except Failure α) :=
  Program.run (I := FileOperation.interface) onDisk work.run

/-- Writes a file under another name before it takes its place. -/
def replaceFile (dir file : String) (contents : Octets) (isPrivate : Bool) : FileWork Unit := do
  let path := FilePath.join dir file
  let draft := path ++ ".tmp"
  DirectoryStore.storeCall .create dir (.makeDirectories dir)
  DirectoryStore.storeCall .write draft (.write draft contents)
  if isPrivate then DirectoryStore.storeCall .chmod draft (.makePrivate draft)
  DirectoryStore.storeCall .rename draft (.rename draft path)

/-- The files of an identity that readers use, with what they hold on disk. -/
def readShown (dir : String) : FileWork (Option TlsMaterial) := do
  let readPart (file : String) : FileWork (Option Octets) :=
    let path := FilePath.join dir file
    FileWork.readOptional path (.storeIo (.file .read path))
  let key ← readPart DirectoryStore.keyFile
  let cert ← readPart DirectoryStore.certFile
  match key, cert with
  | some keyPem, some certPem => return some ⟨keyPem, certPem⟩
  | _, _ => return none

/-- Puts key material where readers find it. -/
def showMaterial (dir : String) (material : TlsMaterial) : FileWork Unit := do
  replaceFile dir DirectoryStore.keyFile material.keyPem true
  replaceFile dir DirectoryStore.certFile material.certPem false

/-- The running program: the store, its files in memory, whether it is to stop, and the form of its
log lines. -/
structure Service where
  store : DirectoryStore
  files : IO.Ref FileTree
  stopping : IO.Ref Bool
  logFormat : CommandLine.LogFormat

def log (format : CommandLine.LogFormat) (event : DaemonEvent) : IO Unit := do
  IO.println (event.line (← systemNow) format)

namespace Service

/-- Does work on the files in memory. -/
def inMemory {α : Type} (service : Service) (work : FileWork α) : IO (Except Failure α) :=
  service.files.modifyGet (FileProgram.run work.run)

/-- A version of a name that is not in use. -/
def freshVersion : IO String := DirectoryStore.versionName <$> randomOctets 16

/-- Reads the key material of an identity, at first from what readers find on disk. -/
def get (service : Service) (id : WebhookIdentity) : IO (Except Failure (Option TlsMaterial)) := do
  match ← service.inMemory (service.store.get id) with
  | .ok none =>
    match ← workOnDisk (readShown (service.store.identityDir id)) with
    | .ok (some material) =>
      let version ← freshVersion
      let result ← service.inMemory (service.store.put id material version)
      return result.map fun () => some material
    | result => return result
  | result => return result

/-- Replaces the key material of an identity in memory and where readers find it. -/
def put (service : Service) (id : WebhookIdentity) (material : TlsMaterial) :
    IO (Except Failure Unit) := do
  match ← service.inMemory (service.store.put id material (← freshVersion)) with
  | .error failure => return .error failure
  | .ok () => workOnDisk (showMaterial (service.store.identityDir id) material)

/-- The length of a nap between two looks at whether to stop, in milliseconds. -/
def nap : Nat := 100

/-- Sleeps for a number of naps and a remainder, and tells whether the program is to stop. -/
def sleep (service : Service) (remainder : Nat) : (naps : Nat) → IO Bool
  | 0 => do
    IO.sleep remainder.toUInt32
    service.stopping.get
  | naps + 1 => do
    if ← service.stopping.get then return true
    IO.sleep nap.toUInt32
    service.sleep remainder naps

/-- Answers a request of a manager with settings. -/
def answer (service : Service) (settings : RotationSettings) :
    (request : ManagerRequest) → IO request.Answer
  | .now => systemNow
  | .jitter window => do
    return Jitter.scale window
      (Jitter.factor settings.jitterMin settings.jitterMax (← randomWord))
  | .newKey => PrivateKey.newRsa <$> randomOctets PrivateKey.rsaSeedOctets
  | .newSerial => LeafSerial.ofRandom <$> randomWord
  | .get id => service.get id
  | .put id material => service.put id material
  | .getBundle id => workOnDisk (service.store.getBundle id)
  | .putBundle id bundle => workOnDisk (service.store.putBundle id bundle)
  | .isCancelled => service.stopping.get
  | .sleep duration =>
    let milliseconds := ((duration.nanoseconds + 999999) / 1000000).toNat
    service.sleep (milliseconds % nap) (milliseconds / nap)
  | .report failure => log service.logFormat (.failed failure)

/-- The number of cycles that a manager goes through; no clock reaches its end. -/
def cycleBudget : Nat := Nat.pow 2 62

/-- Runs a manager until the program is to stop. -/
def runManager (service : Service) (settings : RotationSettings) (manager : RotationManager) :
    IO Unit :=
  discard (Program.run (I := ManagerRequest.interface) (service.answer settings)
    (manager.runCycles cycleBudget))

end Service

/-- Runs the managers of a plan until the program is interrupted. -/
def runPlan (format : CommandLine.LogFormat) (plan : DaemonPlan) : IO Unit := do
  let rotation := plan.settings.rotation
  log format (.loaded plan.settings.outputDir plan.managers.length rotation.certSeconds)
  let service : Service := ⟨plan.store, ← IO.mkRef .empty, ← IO.mkRef false, format⟩
  let interrupt ← (← Std.Async.Signal.Waiter.mk .sigint false).wait
  let tasks ← plan.managers.mapM fun manager => do
    log format (.managing manager.identity (plan.store.identityDir manager.identity))
    IO.asTask (service.runManager rotation manager) .dedicated
  discard interrupt.block
  log format .stopping
  service.stopping.set true
  for task in tasks do
    IO.ofExcept task.get
  log format .stopped

/-- Does what a command line asks for. -/
def execute (invocation : CommandLine.Invocation) : IO Ending := do
  match invocation.command with
  | .initConfig => return .ofResult (← workOnDisk (DaemonSettings.writeSample invocation.path))
  | .run =>
    log invocation.logFormat (.starting invocation.path)
    match ← workOnDisk (DaemonPlan.load invocation.path (← systemNow)) with
    | .error failure => return .ofFailure failure
    | .ok plan =>
      runPlan invocation.logFormat plan
      return .success ""

end CertRotation.Main

/-- Runs the program on its command line. -/
def main (words : List String) : IO UInt32 := do
  let ending ← match CertRotation.CommandLine.read words with
    | .error halt => pure (CertRotation.Ending.ofHalt halt)
    | .ok invocation => CertRotation.Main.execute invocation
  IO.print ending.output
  IO.eprint ending.complaint
  return ending.code.toUInt32
