import NetworkSystem.Lib.Hex
import NetworkSystem.Wire.Message

/-!
# Certificate pinning

`CertificatePins` and `PinningVerifier` of `src/tls/config.rs`. SHA-256 is a parameter, and so is the part of the
upper-case table of Unicode that lies beyond ASCII.
-/

namespace NetworkSystem

/-- A SHA-256 digest. -/
abbrev Digest := { bytes : Bytes // bytes.length = 32 }

/-- The error of `rustls` that the verifier returns. -/
inductive RustlsError where
  | general (msg : String)
  deriving Repr, DecidableEq

/-- `str::replace(pat, "")`. -/
def removeAll (pat : Char) (s : String) : String := String.ofList (s.toList.filter (· != pat))

/-- `str::to_uppercase`. -/
def toUppercase (beyondAscii : Char → List Char) (s : String) : String :=
  String.ofList (s.toList.flatMap fun c => if c.toNat < 128 then [c.toUpper] else beyondAscii c)

/-- `format!("{:02X}", b)`. -/
def format02X (b : UInt8) : String := String.ofList ((Hex.halves b).map Hex.digit)

structure CertificatePins where
  fingerprints : List String
  deriving Repr, DecidableEq

namespace CertificatePins

variable (beyondAscii : Char → List Char) (sha256 : Bytes → Digest)

def new : CertificatePins := ⟨[]⟩

def addFingerprint (pins : CertificatePins) (fingerprint : String) : CertificatePins :=
  let fingerprint := toUppercase beyondAscii (removeAll ':' fingerprint)
  ⟨pins.fingerprints ++ [fingerprint]⟩

/-- `matches`; `cert` is the DER encoding of the certificate. -/
def matchesCert (pins : CertificatePins) (cert : Bytes) : Bool :=
  let certFingerprint := String.join ((sha256 cert).val.map format02X)
  pins.fingerprints.any fun pin => pin == certFingerprint

end CertificatePins

structure PinningVerifier where
  pins : CertificatePins

/-- The verifier looks at nothing but the certificate of the server itself. -/
def PinningVerifier.verifyServerCert (sha256 : Bytes → Digest) (verifier : PinningVerifier) (endEntity : Bytes) :
    Except RustlsError Unit :=
  if verifier.pins.matchesCert sha256 endEntity then .ok ()
  else .error (.general "Certificate does not match any pinned fingerprint")

/-! ## Spellings -/

/-- A digest and a text that spells it: two hexadecimal digits for each byte, in either case, with colons anywhere. -/
structure Spelling where
  digest : Digest
  text : String
  spells : Hex.Spells ':' digest.val text.toList

/-- The pins to which the texts have been added in their order. -/
def CertificatePins.of (beyondAscii : Char → List Char) (spellings : List Spelling) : CertificatePins :=
  spellings.foldl (fun pins s => pins.addFingerprint beyondAscii s.text) new

end NetworkSystem
