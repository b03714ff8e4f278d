import CertRotation.Binary64.Text
import CertRotation.SubjectAltName
import CertRotation.Time.Text
import CertRotation.WebhookIdentity

/-!
What can go wrong, by cause, and the message of every cause. Where a cause has detail that only a
lower layer could word, the message names the cause and leaves the detail out.
-/

namespace CertRotation

/-- The algorithm of a private key. -/
inductive KeyAlgorithm where
  | rsa
  | ecdsaP256
deriving DecidableEq, Repr

def KeyAlgorithm.name : KeyAlgorithm → String
  | .rsa => "Rsa"
  | .ecdsaP256 => "EcdsaP256"

/-- Why a certificate could not be built or signed. -/
inductive SigningFault where
  | unusableKey
  | keyForm
  | timeRange
deriving DecidableEq, Repr

/-- Why input could not be read. -/
inductive ParseFault where
  | malformedPem
  | ecKey
  | rsaKey
  | pkcs8Key
  | noPrivateKey
  | keyForm
  | noCertificate
  | certificate
  | commonName
  | publicKey
deriving DecidableEq, Repr

/-- Why a certificate is not issued as asked. -/
inductive ConfigFault where
  | missingCommonName
  | missingUsage
  | dnsName (name : String)
  | duration (duration : Duration)
deriving DecidableEq, Repr

/-- Why a bundle cannot serve as a set of trusted roots. -/
inductive TrustStoreFault where
  | malformedPem
  | empty
deriving DecidableEq, Repr

/-- Why a signature does not hold. -/
inductive SignatureFault where
  | mismatch
  | unsupported
deriving DecidableEq, Repr

/-- Why a certificate does not chain to a trusted root for a host. -/
inductive ChainFault where
  | noDnsName (subject : DistinguishedName)
  | outsideValidity (subject : DistinguishedName) (now notBefore notAfter : Instant)
  | unknownAuthority (issuer : DistinguishedName)
  | rootNotCa (subject : DistinguishedName)
  | rootOutsideValidity (subject : DistinguishedName)
  | leafUnreadable
  | rootUnreadable
  | signature (subject : DistinguishedName) (fault : SignatureFault)
  | wrongHost (san : List SubjectAltName) (host : String)
  | wrongUsage (usages : List ExtendedKeyUsage)
deriving DecidableEq, Repr

/-- What was being done to a file when it failed. -/
inductive FileAction where
  | create
  | write
  | chmod
  | remove
  | link
  | rename
  | readLink
  | read
  | stat
deriving DecidableEq, Repr

/-- Why the resource store failed. -/
inductive StoreFault where
  | getUnavailable
  | putUnavailable
  | file (action : FileAction) (path : String)
deriving DecidableEq, Repr

/-- Why the trust publisher failed. -/
inductive PublishFault where
  | getUnavailable
  | putUnavailable
  | file (action : FileAction) (path : String)
  | rename (source target : String)
deriving DecidableEq, Repr

/-- The two parts of a webhook identity that are labels. -/
inductive LabelField where
  | name
  | space
deriving DecidableEq, Repr

/-- The two bounds of the rotation window. -/
inductive FactorField where
  | min
  | max
deriving DecidableEq, Repr

/-- Why settings are refused. -/
inductive SettingsFault where
  | emptyLabel (field : LabelField)
  | badLabel (field : LabelField) (value : String)
  | zeroDuration
  | hugeDuration
  | expiresTooLate (seconds : Nat)
  | factorRange (field : FactorField) (factor : Binary64)
  | factorOrder (min max : Binary64)
  | emptyOutputDir
  | noWebhooks
  | duplicateWebhook (id : WebhookIdentity)
  | invalidJson
  | unreadableFile (path : String)
  | missingDirectory (path : String)
  | unwritableFile (path : String)
deriving DecidableEq

/-- A failure, by the part of the work that failed. -/
inductive Failure where
  | keyGeneration
  | signing (fault : SigningFault)
  | parse (fault : ParseFault)
  | invalidConfig (fault : ConfigFault)
  | trustStore (fault : TrustStoreFault)
  | chainVerification (fault : ChainFault)
  | keyMismatch (algorithm : KeyAlgorithm) (subject : DistinguishedName)
  | storeIo (fault : StoreFault)
  | publishIo (fault : PublishFault)
  | config (fault : SettingsFault)
deriving DecidableEq

def inQuotes (text : String) : String := "'" ++ text ++ "'"

def SigningFault.message : SigningFault → String
  | unusableKey => "failed to load signing key"
  | keyForm => "failed to encode private key as PKCS#8: PKCS#8 cryptographic key data malformed"
  | timeRange => "invalid timestamp"

def ParseFault.message : ParseFault → String
  | malformedPem => "malformed PEM data"
  | ecKey => "invalid EC private key"
  | rsaKey => "invalid RSA private key"
  | pkcs8Key => "invalid PKCS#8 private key"
  | noPrivateKey => "data does not contain a valid RSA or ECDSA private key"
  | keyForm => "failed to encode RSA private key: PKCS#8 cryptographic key data malformed"
  | noCertificate => "data does not contain any valid RSA or ECDSA certificates"
  | certificate => "failed to parse certificate"
  | commonName => "failed to parse CN"
  | publicKey => "failed to parse certificate public key"

def ConfigFault.message : ConfigFault → String
  | missingCommonName => "must specify a CommonName"
  | missingUsage => "must specify at least one ExtKeyUsage"
  | dnsName name => "invalid DNS name " ++ inQuotes name
  | duration d => "certificate duration " ++ d.text ++ " is out of range"

def TrustStoreFault.message : TrustStoreFault → String
  | malformedPem => "failed to parse CA bundle"
  | empty => "CA bundle contains no valid certificates"

def SignatureFault.name : SignatureFault → String
  | mismatch => "SignatureVerificationError"
  | unsupported => "SignatureUnsupportedAlgorithm"

/-- What stands before the detail of a chain failure. -/
def ChainFault.lead : String := "certificate chain verification failed: "

/-- What stands before the detail of a reading failure. -/
def ParseFault.lead : String := "parse error: "

/-- The detail of a chain failure. The failure of a single root keeps its own lead. -/
def ChainFault.message : ChainFault → String
  | noDnsName subject =>
    "certificate " ++ inQuotes subject.text ++ " has no DNS subject alternative name"
  | outsideValidity subject now notBefore notAfter =>
    "certificate " ++ inQuotes subject.text ++
      " has expired or is not yet valid: current time " ++ now.text ++ " is outside [" ++
      notBefore.text ++ ", " ++ notAfter.text ++ "]"
  | unknownAuthority issuer => "certificate signed by unknown authority " ++ inQuotes issuer.text
  | rootNotCa subject => inQuotes subject.text ++ " is not a CA"
  | rootOutsideValidity subject =>
    "CA " ++ inQuotes subject.text ++ " has expired or is not yet valid"
  | leafUnreadable => ParseFault.lead ++ ParseFault.certificate.message
  | rootUnreadable => ParseFault.lead ++ "failed to parse issuer certificate"
  | signature subject fault =>
    lead ++ "signature verification failed for " ++ inQuotes subject.text ++ ": " ++ fault.name
  | wrongHost san host =>
    "certificate is valid for " ++ listText (san.map SubjectAltName.text) ++ ", not " ++
      inQuotes host
  | wrongUsage usages =>
    "certificate specifies an incompatible key usage: " ++
      listText (usages.map ExtendedKeyUsage.name)

/-- The verb for what was being done. -/
def FileAction.verb : FileAction → String
  | create => "create"
  | write => "write"
  | chmod => "chmod"
  | remove => "remove"
  | link => "link"
  | rename => "rename"
  | readLink => "read link"
  | read => "read"
  | stat => "stat"

def StoreFault.message : StoreFault → String
  | getUnavailable => "get unavailable"
  | putUnavailable => "put unavailable"
  | file action path => "failed to " ++ action.verb ++ " " ++ path

def PublishFault.message : PublishFault → String
  | getUnavailable => "get_bundle unavailable"
  | putUnavailable => "put_bundle unavailable"
  | file action path => "failed to " ++ action.verb ++ " " ++ path
  | rename source target => "failed to rename " ++ source ++ " to " ++ target

def LabelField.text : LabelField → String
  | name => "name"
  | space => "namespace"

def FactorField.text : FactorField → String
  | min => "jitter_min_factor"
  | max => "jitter_max_factor"

def SettingsFault.message : SettingsFault → String
  | emptyLabel field => "webhook " ++ field.text ++ " cannot be empty"
  | badLabel field value =>
    "webhook " ++ field.text ++ " " ++ inQuotes value ++ " is not a valid DNS label"
  | zeroDuration => "cert_duration_secs must be positive"
  | hugeDuration => "cert_duration_secs is too large"
  | expiresTooLate seconds =>
    "cert_duration_secs " ++ toString seconds ++ " expires past year 9999"
  | factorRange field factor =>
    field.text ++ " must be between 0 and 1 (exclusive), got " ++ factor.text
  | factorOrder min max =>
    "jitter_min_factor (" ++ min.text ++ ") exceeds jitter_max_factor (" ++ max.text ++ ")"
  | emptyOutputDir => "output_dir cannot be empty"
  | noWebhooks => "at least one webhook must be configured"
  | duplicateWebhook id => "duplicate webhook " ++ id.text
  | invalidJson => "invalid JSON"
  | unreadableFile path => "failed to read config file " ++ inQuotes path
  | missingDirectory path => "failed to create config directory " ++ inQuotes path
  | unwritableFile path => "failed to write config file " ++ inQuotes path

namespace Failure

def message : Failure → String
  | keyGeneration => "key generation failed: failed to generate RSA key"
  | signing fault => "certificate signing failed: " ++ fault.message
  | parse fault => ParseFault.lead ++ fault.message
  | invalidConfig fault => "invalid certificate config: " ++ fault.message
  | trustStore fault => "invalid trust store: " ++ fault.message
  | chainVerification fault => ChainFault.lead ++ fault.message
  | keyMismatch algorithm subject =>
    "private key does not match certificate: " ++ algorithm.name ++
      " key does not certify as " ++ inQuotes subject.text
  | storeIo fault => "resource store I/O failed: " ++ fault.message
  | publishIo fault => "trust bundle publish failed: " ++ fault.message
  | config fault => "configuration error: " ++ fault.message

end Failure

end CertRotation
