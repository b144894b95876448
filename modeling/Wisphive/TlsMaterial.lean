import Wisphive.Foundation.Json
import Wisphive.Foundation.Sections
import Wisphive.Redact

/-! The self-signed certificate of the web page. Every daemon and web server that starts
loads the stored pair under the lock beside it, or mints and stores another one. -/

namespace Wisphive
open Foundation

def maxU64 : Nat := 18446744073709551615

def maxI64 : Int := 9223372036854775807

def maxCertAgeSecs : Nat := 90 * 24 * 60 * 60

def certValiditySecs : Int := 397 * 24 * 60 * 60

def certNotBeforeBackdateSecs : Int := 24 * 60 * 60

/-- What is read of the encoding of a certificate. -/
structure Certificate where
  notBefore : Int
  spki : List UInt8
  deriving DecidableEq, Repr

/-- A fresh key with the certificate that it signed for itself. -/
structure Minted where
  keyPem : List UInt8
  certPem : List UInt8
  der : List UInt8
  deriving DecidableEq, Repr

/-- What the libraries mint and read. The names of a certificate are for its clients alone. -/
structure TlsPlatform where
  selfSigned (seed : Nat) (sans : List String) (notBefore notAfter : Int) : Option Minted
  certDerFromPem : List UInt8 → Option (List UInt8)
  fromDer : List UInt8 → Option Certificate
  publicKeyDer : List UInt8 → Option (List UInt8)
  sha256 : List UInt8 → List UInt8
  names : List UInt8 → Option (List String)

/-- What is minted is read as what it was minted for. -/
structure TlsPlatform.Lawful (platform : TlsPlatform) : Prop where
  envelope : ∀ {seed sans notBefore notAfter minted}, platform.selfSigned seed sans notBefore notAfter = some minted →
    platform.certDerFromPem minted.certPem = some minted.der
  pair : ∀ {seed sans notBefore notAfter minted}, platform.selfSigned seed sans notBefore notAfter = some minted →
    ∃ spki, platform.fromDer minted.der = some ⟨notBefore, spki⟩ ∧ platform.publicKeyDer minted.keyPem = some spki
  named : ∀ {seed sans notBefore notAfter minted}, platform.selfSigned seed sans notBefore notAfter = some minted →
    platform.names minted.der = some sans

/-- When a certificate was minted, and for which names. -/
structure CertMeta where
  createdAt : UInt64
  sans : List String
  deriving DecidableEq, Repr

namespace CertMeta

def toJson (stored : CertMeta) : Json :=
  .object [("created_at", .number (.integer stored.createdAt.toNat)), ("sans", .array (stored.sans.map .string))]

def texts : List Json → Option (List String)
  | [] => some []
  | .string text :: rest => (texts rest).map (text :: ·)
  | _ :: _ => none

def ofFields (createdAt sans : Json) : Option CertMeta :=
  match createdAt, sans with
  | .number (.integer seconds), .array items =>
    if 0 ≤ seconds ∧ seconds ≤ maxU64 then (texts items).map fun sans => ⟨UInt64.ofNat seconds.toNat, sans⟩ else none
  | _, _ => none

/-- Other members are passed over. A member that comes twice is an error. -/
def fromJson : Json → Option CertMeta
  | .object members =>
    match members.filter (·.1 = "created_at"), members.filter (·.1 = "sans") with
    | [(_, createdAt)], [(_, sans)] => ofFields createdAt sans
    | _, _ => none
  | .array [createdAt, sans] => ofFields createdAt sans
  | _ => none

end CertMeta

/-- The files beside the lock. A sidecar whose text is no JSON counts as `some none`. -/
structure TlsFiles where
  cert : Option (List UInt8)
  key : Option (List UInt8)
  sidecar : Option (Option Json)

structure EnsureCertResult where
  certPem : List UInt8
  keyPem : List UInt8
  fingerprintSha256 : String
  deriving DecidableEq, Repr

inductive TlsError where
  | io
  | mint
  | corruptMeta
  | corruptCertificate
  | corruptKey
  deriving DecidableEq, Repr

namespace Tls
variable (platform : TlsPlatform)

def fingerprintFromDer (der : List UInt8) : String :=
  let hex (byte : UInt8) := String.ofList [Redact.hexUpper (byte.toNat / 16), Redact.hexUpper (byte.toNat % 16)]
  ":".intercalate ((platform.sha256 der).map hex)

/-- The seconds since a certificate became valid, as the signed subtraction that saturates. -/
def certAge (now : UInt64) (notBefore : Int) : Int :=
  max (-maxI64 - 1) (min maxI64 ((now.toNat : Int).bmod (maxU64 + 1) - notBefore))

/-- Material that cannot be parsed is an error. A pair that does not match, or that is too
old by its own date, is none to go on with. -/
def checkPair (now : UInt64) (certPem keyPem : List UInt8) : Except TlsError (Option EnsureCertResult) :=
  match platform.certDerFromPem certPem with
  | none => .error .corruptCertificate
  | some der =>
    match platform.fromDer der with
    | none => .error .corruptCertificate
    | some certificate =>
      match platform.publicKeyDer keyPem with
      | none => .error .corruptKey
      | some spki =>
        if spki ≠ certificate.spki then .ok none
        else if certAge now certificate.notBefore > maxCertAgeSecs + certNotBeforeBackdateSecs then .ok none
        else .ok (some ⟨certPem, keyPem, fingerprintFromDer platform der⟩)

def tryLoadExisting (now : UInt64) (desiredSans : List String) (files : TlsFiles) : Except TlsError (Option EnsureCertResult) :=
  match files.sidecar with
  | none => .ok none
  | some text =>
    match text.bind CertMeta.fromJson with
    | none => .error .corruptMeta
    | some stored =>
      if now.toNat - stored.createdAt.toNat > maxCertAgeSecs then .ok none
      else if stored.createdAt.toNat > min (now.toNat + maxCertAgeSecs) maxU64 then .ok none
      else if stored.sans ≠ desiredSans then .ok none
      else
        match files.cert, files.key with
        | some certPem, some keyPem => checkPair platform now certPem keyPem
        | _, _ => .ok none

def generate (seed : Nat) (now : UInt64) (desiredSans : List String) : Option Minted :=
  platform.selfSigned seed desiredSans ((now.toNat : Int) - certNotBeforeBackdateSecs) ((now.toNat : Int) + certValiditySecs)

/-- What is left of a call. Whatever fails behind the load, the files are deleted. -/
inductive Place where
  | load (desiredSans : List String)
  | generate (desiredSans : List String)
  | writeKey (desiredSans : List String) (minted : Minted)
  | writeCert (desiredSans : List String) (minted : Minted)
  | writeMeta (desiredSans : List String) (minted : Minted)
  /-- `replaced` says that the certificate on the disk is the one of this call. -/
  | removeMeta (replaced : Bool) (error : TlsError)
  | removeKey (error : TlsError)
  | removeCert (error : TlsError)

/-- Whether the system call fails, and what the clock and the random source yield. -/
structure Choice where
  fault : Bool
  now : UInt64
  seed : Nat

/-- A write is complete before its rename. A deletion that fails is passed over. -/
def ensureCert : Section TlsFiles (List String) Place EnsureCertResult TlsError Choice where
  enter desiredSans := .load desiredSans
  io := .io
  advance choice place files :=
    match place with
    | .load desiredSans =>
      if choice.fault then (files, .refuse .io)
      else
        match tryLoadExisting platform choice.now desiredSans files with
        | .error error => (files, .refuse error)
        | .ok (some existing) => (files, .commit existing)
        | .ok none => (files, .go (.generate desiredSans))
    | .generate desiredSans =>
      match generate platform choice.seed choice.now desiredSans with
      | some minted => (files, .go (.writeKey desiredSans minted))
      | none => (files, .go (.removeMeta false .mint))
    | .writeKey desiredSans minted =>
      if choice.fault then (files, .go (.removeMeta false .io))
      else ({ files with key := some minted.keyPem }, .go (.writeCert desiredSans minted))
    | .writeCert desiredSans minted =>
      if choice.fault then (files, .go (.removeMeta false .io))
      else ({ files with cert := some minted.certPem }, .go (.writeMeta desiredSans minted))
    | .writeMeta desiredSans minted =>
      if choice.fault then (files, .go (.removeMeta true .io))
      else
        ({ files with sidecar := some (some (CertMeta.toJson ⟨choice.now, desiredSans⟩)) },
          .commit ⟨minted.certPem, minted.keyPem, fingerprintFromDer platform minted.der⟩)
    | .removeMeta _ error => (if choice.fault then files else { files with sidecar := none }, .go (.removeKey error))
    | .removeKey error => (if choice.fault then files else { files with key := none }, .go (.removeCert error))
    | .removeCert error => (if choice.fault then files else { files with cert := none }, .refuse error)

/-- The fingerprint that the command line shows. It takes no lock and mints nothing. -/
def readCertFingerprint (files : TlsFiles) : Except TlsError (Option String) :=
  match files.cert with
  | none => .ok none
  | some certPem =>
    match platform.certDerFromPem certPem with
    | none => .error .corruptCertificate
    | some der => .ok (some (fingerprintFromDer platform der))

end Tls
end Wisphive
