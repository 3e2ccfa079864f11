import NetworkSystem.Wire.Message

/-!
# Message processors

The processors of `src/integration/thread_pool.rs` and `ProcessorPipeline`. A processor may act on the world around
it; `W` is that world.
-/

namespace NetworkSystem

/-- `MessageProcessor::process`. -/
abbrev MessageProcessor (W : Type) := Message → EStateM NetworkError W Message

/-- The gzip encoder and decoder of the `flate2` crate. -/
structure Flate2 where
  Encoder : Type
  /-- `GzEncoder::new(Vec::new(), Compression::new(level))`. -/
  newEncoder : UInt32 → Encoder
  writeAll : Encoder → Bytes → Except String Encoder
  finish : Encoder → Except String Bytes
  /-- `GzDecoder::new(data)` read to its end. -/
  readToEnd : Bytes → Except String Bytes

/-- The decoder undoes the encoder of this level on every byte string, and neither fails on it. -/
def Flate2.Lossless (flate2 : Flate2) (level : UInt32) : Prop :=
  ∀ data, ∃ encoder compressed, flate2.writeAll (flate2.newEncoder level) data = .ok encoder ∧
    flate2.finish encoder = .ok compressed ∧ flate2.readToEnd compressed = .ok data

section

variable {W : Type}

/-- `result.map_err(|e| NetworkError::other(format!("{text}: {}", e)))?`. -/
def orOther {T : Type} (text : String) (result : Except String T) : EStateM NetworkError W T :=
  match result with
  | .ok value => pure value
  | .error e => throw (.other (text ++ ": " ++ e))

namespace IdentityProcessor

def process : MessageProcessor W := fun message => pure message

end IdentityProcessor

structure CompressionProcessor where
  level : UInt32
  deriving Repr, DecidableEq

namespace CompressionProcessor

def process (flate2 : Flate2) (p : CompressionProcessor) : MessageProcessor W := fun message => do
  let encoder ← orOther "Compression failed" (flate2.writeAll (flate2.newEncoder p.level) message.data)
  let compressed ← orOther "Compression failed" (flate2.finish encoder)
  return ⟨compressed⟩

end CompressionProcessor

namespace DecompressionProcessor

def process (flate2 : Flate2) : MessageProcessor W := fun message => do
  let decompressed ← orOther "Decompression failed" (flate2.readToEnd message.data)
  return ⟨decompressed⟩

end DecompressionProcessor

structure EncryptionProcessor where
  key : Bytes
  deriving Repr, DecidableEq

namespace EncryptionProcessor

/-- Byte `i` of the data is combined with byte `i % key.len()` of the key. -/
def encrypt (key : Bytes) (hkey : key ≠ []) (data : Bytes) : Bytes :=
  data.mapIdx fun i byte => byte ^^^ key.get ⟨i % key.length, Nat.mod_lt i (List.length_pos_iff.mpr hkey)⟩

def process (p : EncryptionProcessor) : MessageProcessor W := fun message =>
  if hkey : p.key = [] then throw (.other "Encryption key is empty")
  else pure ⟨encrypt p.key hkey message.data⟩

end EncryptionProcessor

structure ProcessorPipeline (W : Type) where
  processors : List (MessageProcessor W)

namespace ProcessorPipeline

def new : ProcessorPipeline W := ⟨[]⟩

def add (pipeline : ProcessorPipeline W) (processor : MessageProcessor W) : ProcessorPipeline W :=
  ⟨pipeline.processors ++ [processor]⟩

def process (pipeline : ProcessorPipeline W) : MessageProcessor W := fun message => do
  let mut message := message
  for processor in pipeline.processors do
    message ← processor message
  return message

/-- The pipeline to which the processors have been added in their order. -/
def of (processors : List (MessageProcessor W)) : ProcessorPipeline W := processors.foldl add new

end ProcessorPipeline

/-! ## Mirrored pipelines -/

/-- A stage that can be undone. -/
inductive Stage where
  | identity
  | encryption (key : Bytes) (hkey : key ≠ [])
  | compression (level : UInt32)

namespace Stage

def process (flate2 : Flate2) : Stage → MessageProcessor W
  | .identity => IdentityProcessor.process
  | .encryption key _ => EncryptionProcessor.process ⟨key⟩
  | .compression level => CompressionProcessor.process flate2 ⟨level⟩

def inverse (flate2 : Flate2) : Stage → MessageProcessor W
  | .identity => IdentityProcessor.process
  | .encryption key _ => EncryptionProcessor.process ⟨key⟩
  | .compression _ => DecompressionProcessor.process flate2

/-- A compression can be undone at its level. -/
def Lossless (flate2 : Flate2) : Stage → Prop
  | .compression level => flate2.Lossless level
  | _ => True

end Stage

/-- The stages, and then their inverses in reverse order, give the message back. -/
def Mirrored (flate2 : Flate2) (stages : List Stage) (message : Message) (w : W) : Prop :=
  ((ProcessorPipeline.of (stages.map (Stage.process flate2))).process message >>=
    (ProcessorPipeline.of (stages.map (Stage.inverse flate2)).reverse).process) w = .ok message w

/-- An encryption with a key succeeds and keeps the length of the message. -/
def KeepsLength (key : Bytes) (message : Message) (w : W) : Prop :=
  ∃ encrypted, EncryptionProcessor.process ⟨key⟩ message w = .ok encrypted w ∧ encrypted.size = message.size

/-- A pipeline fails exactly where one of its processors does: with the error of this processor, and in the world
that it has left, so that no later processor has run. -/
def StopsAtFailure (processors : List (MessageProcessor W)) (message : Message) (w : W) : Prop :=
  ∀ e w', (ProcessorPipeline.of processors).process message w = .error e w' ↔
    ∃ before processor after message' v, processors = before ++ processor :: after ∧
      (ProcessorPipeline.of before).process message w = .ok message' v ∧ processor message' v = .error e w'

end

end NetworkSystem
