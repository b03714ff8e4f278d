import CertRotation.Files.Work
import CertRotation.Trust.TlsMaterial

/-!
Key material and bundles as files below a root directory. The directory of an identity holds

* a version directory with the key and the certificate chain,
* the link `..data` to it, which is replaced as a whole when another version is written,
* links to the two files through `..data`, for readers, and
* the bundle.

Key and certificate switch together, because a reader goes through the one link.
-/

namespace CertRotation

/-- Where the files of all identities are kept. -/
structure DirectoryStore where
  root : String
deriving DecidableEq, Repr

namespace DirectoryStore

open FileWork (attempt call readOptional)

def keyFile : String := "tls.key"

/-- The name of the file of the certificate chain. -/
def certFile : String := "tls.crt"

def bundleFile : String := "ca-bundle.crt"

/-- The name under which a bundle is written before it takes its place. -/
def bundleDraft : String := "ca-bundle.tmp"

/-- The name of the link to the version that is served. -/
def dataLink : String := "..data"

/-- The name under which that link is made before it takes its place. -/
def dataLinkDraft : String := "..data_tmp"

/-- The name of a version, by octets that make it one of a kind. -/
def versionName (random : Octets) : String := ".." ++ Octets.hex random

def identityDir (store : DirectoryStore) (id : WebhookIdentity) : String :=
  FilePath.join (FilePath.join (FilePath.join store.root id.space) id.name) id.kind.name

/-- Makes a call of the resource store on a path. -/
def storeCall (action : FileAction) (path : String) (operation : FileOperation) :
    FileWork operation.Value :=
  call operation (.storeIo (.file action path))

/-- Reads the key material of an identity; there is none when any part of it is missing. The link
is resolved once, so that both files come from one version. -/
def get (store : DirectoryStore) (id : WebhookIdentity) : FileWork (Option TlsMaterial) := do
  let dir := store.identityDir id
  let link := FilePath.join dir dataLink
  match ← attempt (.readLink link) with
  | .error .notFound => return none
  | .error _ => throw (.storeIo (.file .readLink link))
  | .ok target =>
    let version := FilePath.join dir target
    let keyPath := FilePath.join version keyFile
    let certPath := FilePath.join version certFile
    let key ← readOptional keyPath (.storeIo (.file .read keyPath))
    let cert ← readOptional certPath (.storeIo (.file .read certPath))
    match key, cert with
    | some keyPem, some certPem => return some ⟨keyPem, certPem⟩
    | _, _ => return none

def writeVersion (versionDir : String) (material : TlsMaterial) : FileWork Unit := do
  let keyPath := FilePath.join versionDir keyFile
  let certPath := FilePath.join versionDir certFile
  storeCall .create versionDir (.makeDirectories versionDir)
  storeCall .write keyPath (.write keyPath material.keyPem)
  storeCall .chmod keyPath (.makePrivate keyPath)
  storeCall .write certPath (.write certPath material.certPem)

/-- Makes the link that readers of a file go through, unless something stands there. -/
def ensureReaderLink (dir file : String) : FileWork Unit := do
  let link := FilePath.join dir file
  match ← attempt (.probe link) with
  | .ok () => return
  | .error .notFound =>
    storeCall .link link (.makeLink (FilePath.join dataLink file) link)
  | .error _ => throw (.storeIo (.file .stat link))

/-- Replaces the key material of an identity by a version of a name that is not in use. The version
before it is removed at the end. -/
def put (store : DirectoryStore) (id : WebhookIdentity) (material : TlsMaterial)
    (version : String) : FileWork Unit := do
  let dir := store.identityDir id
  let link := FilePath.join dir dataLink
  let draft := FilePath.join dir dataLinkDraft
  let before ← attempt (.readLink link)
  writeVersion (FilePath.join dir version) material
  match ← attempt (.removeFile draft) with
  | .ok () | .error .notFound => pure ()
  | .error _ => throw (.storeIo (.file .remove draft))
  storeCall .link draft (.makeLink version draft)
  storeCall .rename draft (.rename draft link)
  ensureReaderLink dir keyFile
  ensureReaderLink dir certFile
  match before with
  | .ok old => if old ≠ version then discard (attempt (.removeTree (FilePath.join dir old)))
  | .error _ => return

def getBundle (store : DirectoryStore) (id : WebhookIdentity) : FileWork (Option Octets) :=
  let path := FilePath.join (store.identityDir id) bundleFile
  readOptional path (.publishIo (.file .read path))

/-- Replaces the bundle of an identity. -/
def putBundle (store : DirectoryStore) (id : WebhookIdentity) (bundle : Octets) :
    FileWork Unit := do
  let dir := store.identityDir id
  let path := FilePath.join dir bundleFile
  let draft := FilePath.join dir bundleDraft
  call (.makeDirectories dir) (.publishIo (.file .create dir))
  call (.write draft bundle) (.publishIo (.file .write draft))
  call (.rename draft path) (.publishIo (.rename draft path))

end DirectoryStore

end CertRotation
