import NetworkSystem.Lib.Stages
import NetworkSystem.Processor.Processors

/-!
# What undoes a processor

The cyclic XOR is its own inverse at every byte, and the decoder undoes the encoder. A pipeline runs its stages one
through another.
-/

namespace NetworkSystem

open Stages

variable {W : Type}

/-! ## The pipeline -/

theorem ProcessorPipeline.foldl_add (processors : List (MessageProcessor W)) (pipeline : ProcessorPipeline W) :
    (processors.foldl add pipeline).processors = pipeline.processors ++ processors := by
  induction processors generalizing pipeline with
  | nil => exact (List.append_nil _).symm
  | cons processor processors ih =>
      rw [List.foldl_cons, ih, add, List.append_assoc]
      rfl

theorem ProcessorPipeline.process_of (processors : List (MessageProcessor W)) :
    (of processors).process = through processors := by
  funext message
  have hof : (of processors).processors = processors := foldl_add processors new
  unfold process through
  rw [hof]
  simp only [bind_pure_comp, List.forIn_yield_eq_foldlM, id_map']
  exact bind_pure _

/-! ## The processors -/

/-- Applying a self-inverse function at every index twice changes nothing. -/
theorem mapIdx_involutive {α : Type} {f : Nat → α → α} (hf : ∀ i a, f i (f i a) = a) (l : List α) :
    (l.mapIdx f).mapIdx f = l := by
  rw [List.mapIdx_mapIdx, List.mapIdx_eq_iff]
  intro i
  simp [Function.comp_def, hf]

theorem EncryptionProcessor.encrypt_encrypt {key : Bytes} (hkey : key ≠ []) (data : Bytes) :
    encrypt key hkey (encrypt key hkey data) = data := by
  refine mapIdx_involutive (fun i byte => ?_) data
  rw [UInt8.xor_assoc, UInt8.xor_self, UInt8.xor_zero]

theorem EncryptionProcessor.process_eq {key : Bytes} (hkey : key ≠ []) (message : Message) :
    process ⟨key⟩ message = (pure ⟨encrypt key hkey message.data⟩ : EStateM NetworkError W Message) := dif_neg hkey

theorem encryption_keepsLength {key : Bytes} (hkey : key ≠ []) (message : Message) (w : W) :
    KeepsLength key message w :=
  ⟨_, congrFun (EncryptionProcessor.process_eq hkey message) w, List.length_mapIdx⟩

theorem EncryptionProcessor.undoes_itself {key : Bytes} (hkey : key ≠ []) :
    Undoes (process ⟨key⟩ : MessageProcessor W) (process ⟨key⟩) := by
  intro message
  rw [process_eq hkey, pure_bind, process_eq hkey, encrypt_encrypt]

theorem DecompressionProcessor.undoes {flate2 : Flate2} {level : UInt32} (hflate2 : flate2.Lossless level) :
    Undoes (CompressionProcessor.process flate2 ⟨level⟩ : MessageProcessor W) (process flate2) := by
  intro message
  obtain ⟨encoder, compressed, hwrite, hfinish, hread⟩ := hflate2 message.data
  unfold CompressionProcessor.process process
  simp only [orOther, hwrite, hfinish, hread, pure_bind]

theorem Stage.undoes {flate2 : Flate2} {stage : Stage} (hflate2 : stage.Lossless flate2) :
    Undoes (stage.process flate2 : MessageProcessor W) (stage.inverse flate2) := by
  cases stage with
  | identity => exact fun message => rfl
  | encryption key hkey => exact EncryptionProcessor.undoes_itself hkey
  | compression level => exact DecompressionProcessor.undoes hflate2

theorem stages_mirrored {flate2 : Flate2} {stages : List Stage} (hflate2 : ∀ stage ∈ stages, stage.Lossless flate2)
    (message : Message) (w : W) : Mirrored flate2 stages message w := by
  have hundoes : Undoes (through (stages.map (Stage.process flate2)))
      (through (stages.map (Stage.inverse (W := W) flate2)).reverse) :=
    undoes_mirrored fun stage hstage => Stage.undoes (hflate2 stage hstage)
  unfold Mirrored
  rw [ProcessorPipeline.process_of, ProcessorPipeline.process_of, hundoes message]
  rfl

theorem pipeline_stopsAtFailure (processors : List (MessageProcessor W)) (message : Message) (w : W) :
    StopsAtFailure processors message w := by
  intro e w'
  simp only [ProcessorPipeline.process_of]
  exact through_eq_error_iff

end NetworkSystem
