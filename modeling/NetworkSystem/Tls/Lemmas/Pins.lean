import NetworkSystem.Tls.Pins

/-!
# The text of a fingerprint

Both ways to the text of a fingerprint, from a spelling and from a digest, end in the text that the digest is written
as.
-/

namespace NetworkSystem

variable {beyondAscii : Char → List Char} {sha256 : Bytes → Digest}

/-- What every pin is compared in. -/
def Digest.text (d : Digest) : String := String.ofList (Hex.written d.val)

theorem Digest.text_inj {d e : Digest} : d.text = e.text ↔ d = e := by
  constructor
  · intro h
    exact Subtype.ext (Hex.written_inj (String.ofList_injective h))
  · exact congrArg Digest.text

theorem digit_uppercase {d : Fin 16} {c : Char} (h : Hex.IsDigit d c) :
    (if c.toNat < 128 then [c.toUpper] else beyondAscii c) = [Hex.digit d] := by
  rw [if_pos h.ascii, h.toUpper]

/-- The normaliser does not see how the digest is spelled. -/
theorem Spelling.uppercase (s : Spelling) : toUppercase beyondAscii (removeAll ':' s.text) = s.digest.text := by
  unfold toUppercase removeAll Digest.text
  rw [String.toList_ofList, s.spells.normalised fun _ _ => digit_uppercase]

theorem certFingerprint_eq (d : Digest) : String.join (d.val.map format02X) = d.text := by
  apply String.toList_injective
  unfold Digest.text Hex.written
  rw [String.toList_join, String.toList_ofList, List.flatMap_map]
  simp only [format02X, String.toList_ofList]

namespace CertificatePins

theorem fingerprints_foldl (spellings : List Spelling) (pins : CertificatePins) :
    (spellings.foldl (fun pins s => pins.addFingerprint beyondAscii s.text) pins).fingerprints =
      pins.fingerprints ++ spellings.map fun s => s.digest.text := by
  induction spellings generalizing pins with
  | nil => exact (List.append_nil _).symm
  | cons s spellings ih =>
      rw [List.foldl_cons, ih, List.map_cons]
      simp only [addFingerprint, s.uppercase, List.append_assoc, List.singleton_append]

theorem fingerprints_of (spellings : List Spelling) :
    (CertificatePins.of beyondAscii spellings).fingerprints = spellings.map fun s => s.digest.text :=
  fingerprints_foldl spellings new

theorem matchesCert_of {spellings : List Spelling} {cert : Bytes} :
    (CertificatePins.of beyondAscii spellings).matchesCert sha256 cert = true ↔
      sha256 cert ∈ spellings.map Spelling.digest := by
  unfold matchesCert
  rw [fingerprints_of, certFingerprint_eq, List.any_map, List.any_eq_true, List.mem_map]
  simp only [Function.comp_apply, beq_iff_eq, Digest.text_inj]

end CertificatePins

theorem PinningVerifier.verifyServerCert_eq_ok {verifier : PinningVerifier} {cert : Bytes} :
    verifier.verifyServerCert sha256 cert = .ok () ↔ verifier.pins.matchesCert sha256 cert = true := by
  unfold verifyServerCert
  split
  · rename_i h
    exact iff_of_true rfl h
  · rename_i h
    exact iff_of_false (by simp) h

end NetworkSystem
