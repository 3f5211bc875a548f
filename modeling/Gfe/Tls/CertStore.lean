import Gfe.Config.Types
import Gfe.Lib.HashMap
import Gfe.Lib.Ranking

/-! # Certificate stores

What a handshake is answered from: a certificate by its SNI name, exactly, by a
single-label wildcard, or the default. Two names share a certificate when they
resolve to the same entry of the configuration, not when the bytes agree, so a
key remembers which entry it was loaded for.
-/

namespace Gfe

abbrev Bytes := List UInt8

inductive IoError where
  | notFound
  | permissionDenied
  | addrInUse
  | addrNotAvailable
  | invalidInput
  | invalidData
  | other (code : Nat)
  deriving DecidableEq, Repr

/-- What a key type can tell about its public half. -/
inductive KeysMatch where
  | same
  | unknown
  | inconsistent
  deriving DecidableEq, Repr

/-- The third-party code a config is read with: the JSON and PEM readers, the
    X.509 parser and the key provider, and the standard library's hasher. `none` is
    an error of theirs. -/
structure Crates where
  /-- `String::from_utf8`, as `read_to_string` applies it. -/
  utf8 : Bytes → Option Str
  configFromJson : Str → Option DynamicConfig
  configToJson : DynamicConfig → Option Bytes
  pemCertificates : Bytes → Option (List Bytes)
  /-- The first key, if the file parses and there is one. -/
  pemPrivateKey : Bytes → Option (Option Bytes)
  notAfter : Bytes → Option Int
  keySupported : Bytes → Bool
  keysMatch : List Bytes → Bytes → KeysMatch
  /-- The hash of an authority and a replica number. -/
  hash64 : Str → Nat → UInt64

/-- The third-party code of a host whose config files are one byte long, the
    position of the config in a list, and whose PEM files hold one certificate
    or key as it is. -/
def Crates.indexed (configs : List DynamicConfig) : Crates where
  utf8 bytes := some (bytes.map fun byte => Char.ofNat byte.toNat)
  configFromJson
    | [c] => configs[c.toNat]?
    | _ => none
  configToJson config := (configs.idxOf? config).map fun index => [UInt8.ofNat index]
  pemCertificates bytes := some [bytes]
  pemPrivateKey bytes := some (some bytes)
  notAfter _ := some 0
  keySupported _ := true
  keysMatch _ _ := .same
  hash64 _ replica := UInt64.ofNat replica

structure CertSpec where
  sni : List Str
  default : Bool
  certFile : Path
  keyFile : Path
  deriving DecidableEq, Repr

/-- Why PEM bytes are not a usable chain and key. -/
inductive PemProblem where
  | parsingCertificates
  | noCertificate
  | parsingX509
  | parsingKey
  | noKey
  | unsupportedKey
  | keyMismatch
  deriving DecidableEq, Repr

inductive TlsError where
  | read (path : Path) (error : IoError)
  | invalidFiles (certFile keyFile : Path) (reason : PemProblem)
  | entry (names : List Str) (error : TlsError)
  | twoDefaults (first second : Path)
  deriving DecidableEq, Repr

structure CertifiedKey where
  chain : List Bytes
  key : Bytes
  deriving DecidableEq, Repr

structure LoadedCert where
  certifiedKey : CertifiedKey
  notAfterUnix : Int
  deriving DecidableEq, Repr

def loadCertPem (crates : Crates) (certPem keyPem : Bytes) : Except PemProblem LoadedCert := do
  let some certs := crates.pemCertificates certPem | throw .parsingCertificates
  let some leaf := certs.head? | throw .noCertificate
  let some notAfter := crates.notAfter leaf | throw .parsingX509
  let some key := crates.pemPrivateKey keyPem | throw .parsingKey
  let some key := key | throw .noKey
  if !crates.keySupported key then throw .unsupportedKey
  -- a key type that cannot report its public half is no evidence of a mismatch
  if crates.keysMatch certs key == .inconsistent then throw .keyMismatch
  return ⟨⟨certs, key⟩, notAfter⟩

/-- A key shared by every name of one entry. `entry` is the identity two shares
    are compared by: the position of the entry they were loaded for. -/
structure SharedKey where
  entry : Nat
  key : CertifiedKey
  deriving DecidableEq, Repr

structure CertStore where
  exact : HashMap Str SharedKey
  /-- The suffix keeps its leading dot. Longest suffix first. -/
  wildcard : List (Str × SharedKey)
  default : Option SharedKey
  /-- Each configured name with the expiry of its certificate. -/
  expiries : List (Str × Int)
  deriving DecidableEq

def defaultName : Str := ['<', 'd', 'e', 'f', 'a', 'u', 'l', 't', '>']

/-- How errors name an entry: by its SNI names, or as the default. -/
def entryNames (spec : CertSpec) : List Str :=
  if spec.sni.isEmpty then [defaultName] else spec.sni

def wildcardSuffixMatches (suffix host : Str) : Bool :=
  match Text.stripEnd host suffix with
  | some label => !label.isEmpty && !label.contains '.'
  | none => false

namespace CertStore

def empty : CertStore := ⟨∅, [], none, []⟩

def addName (key : SharedKey) (notAfter : Int) (store : CertStore) (sni : Str) : CertStore :=
  let name := Text.toAsciiLowercase sni
  let store := { store with expiries := store.expiries ++ [(name, notAfter)] }
  match Text.stripStart name ['*'] with
  | some suffix => { store with wildcard := store.wildcard ++ [(suffix, key)] }
  | none => { store with exact := store.exact.insert name key }

/-- Add a loaded entry. `defaultFile` is the certificate file of the default
    entry seen so far. -/
def addEntry (store : CertStore) (defaultFile : Option Path) (spec : CertSpec) (entry : Nat)
    (loaded : LoadedCert) : Except TlsError (CertStore × Option Path) :=
  let key : SharedKey := ⟨entry, loaded.certifiedKey⟩
  let addNames (store : CertStore) := spec.sni.foldl (addName key loaded.notAfterUnix) store
  if spec.default then
    match defaultFile with
    | some first => .error (.twoDefaults first spec.certFile)
    | none =>
      let store := { store with
        default := some key
        expiries := store.expiries ++ [(defaultName, loaded.notAfterUnix)] }
      .ok (addNames store, some spec.certFile)
  else .ok (addNames store, defaultFile)

/-- The last step of a build: the wildcards longest suffix first. -/
def order (store : CertStore) : CertStore :=
  { store with wildcard := Ranking.sortDescending (fun entry => Text.len entry.1) store.wildcard }

def resolve (store : CertStore) (sni : Option Str) : Option SharedKey :=
  match sni with
  | none => store.default
  | some name =>
    let name := Text.toAsciiLowercase name
    match store.exact.lookup name with
    | some key => some key
    | none =>
      match store.wildcard.find? fun entry => wildcardSuffixMatches entry.1 name with
      | some entry => some entry.2
      | none => store.default

/-- Whether two names resolve to the same entry. -/
def sameCertificate (store : CertStore) (a b : Str) : Bool :=
  match store.resolve (some a), store.resolve (some b) with
  | some a, some b => a.entry == b.entry
  | _, _ => false

end CertStore

/-! ## The files behind a store -/

/-- What identifies one version of a file without reading it. -/
structure FileStamp where
  inode : UInt64
  size : UInt64
  modifiedNs : Int × Int
  changedNs : Int × Int
  deriving DecidableEq, Repr, Inhabited

/-- `none` when the file cannot be inspected. -/
abbrev Stamp := Option FileStamp

/-- The certificate and key files of a set of entries, as seen on disk. -/
structure CertFiles where
  seen : List (Path × Stamp)
  deriving DecidableEq, Repr

/-- The files entries refer to, in the order they are looked at. -/
def certPaths (specs : List CertSpec) : List Path :=
  specs.flatMap fun spec => [spec.certFile, spec.keyFile]

end Gfe
