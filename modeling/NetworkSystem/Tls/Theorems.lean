import NetworkSystem.Tls.Lemmas.Pins

/-!
# What pinning accepts

A pin set stands for the digests that have been added to it, however they were spelled.
-/

namespace NetworkSystem

/-- The verifier accepts a certificate exactly if its digest has been added to the pins. An empty pin set accepts
nothing, and two spellings make one pin exactly if they spell one digest. -/
theorem pinning_accepts_pinned (beyondAscii : Char → List Char) (sha256 : Bytes → Digest) :
    (∀ (spellings : List Spelling) (cert : Bytes),
      (PinningVerifier.mk (.of beyondAscii spellings)).verifyServerCert sha256 cert = .ok () ↔
        sha256 cert ∈ spellings.map Spelling.digest) ∧
    (∀ cert, (PinningVerifier.mk .new).verifyServerCert sha256 cert ≠ .ok ()) ∧
    ∀ s t : Spelling, CertificatePins.new.addFingerprint beyondAscii s.text =
      CertificatePins.new.addFingerprint beyondAscii t.text ↔ s.digest = t.digest := by
  refine ⟨fun spellings cert => ?_, fun cert => ?_, fun s t => ?_⟩
  · rw [PinningVerifier.verifyServerCert_eq_ok]
    exact CertificatePins.matchesCert_of
  · simp [PinningVerifier.verifyServerCert_eq_ok, CertificatePins.matchesCert, CertificatePins.new]
  · simp only [CertificatePins.addFingerprint, s.uppercase, t.uppercase, CertificatePins.mk.injEq,
      List.append_cancel_left_eq, List.cons.injEq, and_true, Digest.text_inj]

/-- The fingerprint in the documentation of `add_fingerprint`. -/
def documented : Spelling where
  digest := ⟨[0xE3, 0xB0, 0xC4, 0x42, 0x98, 0xFC, 0x1C, 0x14, 0x9A, 0xFB, 0xF4, 0xC8, 0x99, 0x6F, 0xB9, 0x24, 0x27,
    0xAE, 0x41, 0xE4, 0x64, 0x9B, 0x93, 0x4C, 0xA4, 0x95, 0x99, 0x1B, 0x78, 0x52, 0xB8, 0x55], rfl⟩
  text := "E3:B0:C4:42:98:FC:1C:14:9A:FB:F4:C8:99:6F:B9:24:27:AE:41:E4:64:9B:93:4C:A4:95:99:1B:78:52:B8:55"
  spells := by decide

/-- The same digest in both cases, with colons between some of its bytes. -/
def mixedCase : Spelling where
  digest := documented.digest
  text := "e3:b0:C4:42:98fc1c149AFBF4C8996fb92427AE41E4:649b934ca495991b7852b855"
  spells := by decide

example : mixedCase.digest = documented.digest ∧ mixedCase.text ≠ documented.text := ⟨rfl, by decide⟩

end NetworkSystem
