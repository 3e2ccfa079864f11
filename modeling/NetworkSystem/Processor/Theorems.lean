import NetworkSystem.Processor.Lemmas.Processors

/-!
# Pipelines of message processors

A message that has gone through a pipeline and back through its mirror is the message that went in.
-/

namespace NetworkSystem

/-- Every pipeline of identities, encryptions with a key and compressions, at levels at which `flate2` loses nothing,
is undone by its mirror. An encryption keeps the length of a message, and a pipeline of any processors stops at the
first that fails. -/
theorem mirrored_pipeline_restores {W : Type} (flate2 : Flate2) :
    (∀ stages : List Stage, (∀ stage ∈ stages, stage.Lossless flate2) →
      ∀ (message : Message) (w : W), Mirrored flate2 stages message w) ∧
    (∀ key : Bytes, key ≠ [] → ∀ (message : Message) (w : W), KeepsLength key message w) ∧
    ∀ (processors : List (MessageProcessor W)) (message : Message) (w : W),
      StopsAtFailure processors message w :=
  ⟨fun _ => stages_mirrored, fun _ => encryption_keepsLength, pipeline_stopsAtFailure⟩

/-- What `GzEncoder` makes of the bytes 3 and 2 at level 6. -/
def gzipped : Bytes := [31, 139, 8, 0, 0, 0, 0, 0, 0, 255, 99, 102, 2, 0, 16, 32, 250, 132, 2, 0, 0, 0]

/-- The encoder and the decoder on these two bytes; any other input is stored behind a zero. -/
def storingFlate2 : Flate2 where
  Encoder := Bytes
  newEncoder _ := []
  writeAll written data := .ok (written ++ data)
  finish written := .ok (if written = [3, 2] then gzipped else 0 :: written)
  readToEnd
    | 0 :: data => .ok data
    | data => if data = gzipped then .ok [3, 2] else .error "invalid gzip header"

theorem storingFlate2_lossless (level : UInt32) : storingFlate2.Lossless level := by
  intro data
  refine ⟨data, if data = [3, 2] then gzipped else 0 :: data, rfl, rfl, ?_⟩
  split
  · rename_i hdata
    rw [hdata]
    rfl
  · rfl

theorem storingFlate2_stage (stage : Stage) : stage.Lossless storingFlate2 := by
  cases stage with
  | compression level => exact storingFlate2_lossless level
  | _ => trivial

/-- The message "hi" is encrypted with the key "k" and compressed, and comes back. -/
theorem hi_restored :
    let stages := [Stage.encryption [107] (by decide), .compression 6]
    (ProcessorPipeline.of (stages.map (Stage.process storingFlate2))).process ⟨[104, 105]⟩ () = .ok ⟨gzipped⟩ () ∧
      Mirrored storingFlate2 stages ⟨[104, 105]⟩ () ∧ KeepsLength [107] ⟨[104, 105]⟩ () :=
  have h := mirrored_pipeline_restores storingFlate2
  ⟨rfl, h.1 _ (fun stage _ => storingFlate2_stage stage) _ _, h.2.1 [107] (by decide) _ _⟩

end NetworkSystem
