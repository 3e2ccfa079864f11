import NetworkSystem.Wire.Message
import NetworkSystem.Lib.PrefixCode

/-!
# The wire format as a prefix code

`messageCode` is the prefix code of the frames, and `decode` takes frames off a buffer exactly as the
code does (`decode_eq`).
-/

namespace NetworkSystem

/-! ## Big-endian numbers -/

theorem beValue_lt (bs : Bytes) : beValue bs < 256 ^ bs.length := by
  induction bs using List.reverseRecOn with
  | nil => simp [beValue]
  | append_singleton bs b ih =>
      have hb : b.toNat < 256 := b.toNat_lt
      have hsnoc : beValue (bs ++ [b]) = beValue bs * 256 + b.toNat := by simp [beValue]
      rw [hsnoc, List.length_append, List.length_singleton, Nat.pow_succ]
      omega

theorem u32FromBeBytes_toNat {bs : Bytes} (h : bs.length = 4) : (u32FromBeBytes bs).toNat = beValue bs := by
  have hlt := beValue_lt bs
  rw [h] at hlt
  rw [u32FromBeBytes, UInt32.toNat_ofNat']
  exact Nat.mod_eq_of_lt (by omega)

@[simp]
theorem u32ToBeBytes_length (n : UInt32) : (u32ToBeBytes n).length = 4 := rfl

theorem beValue_u32ToBeBytes (n : UInt32) : beValue (u32ToBeBytes n) = n.toNat := by
  have hn := n.toNat_lt
  simp only [beValue, u32ToBeBytes, List.foldl_cons, List.foldl_nil, UInt8.toNat_ofNat']
  omega

theorem u32ToBeBytes_beValue {bs : Bytes} (h : bs.length = 4) :
    u32ToBeBytes (UInt32.ofNat (beValue bs)) = bs := by
  have hlt := beValue_lt bs
  rw [h] at hlt
  have hn : (UInt32.ofNat (beValue bs)).toNat = beValue bs := by
    rw [UInt32.toNat_ofNat']; exact Nat.mod_eq_of_lt (by omega)
  match bs, h with
  | [b₀, b₁, b₂, b₃], _ =>
      have h₀ := b₀.toNat_lt
      have h₁ := b₁.toNat_lt
      have h₂ := b₂.toNat_lt
      have h₃ := b₃.toNat_lt
      simp only [u32ToBeBytes, hn]
      simp only [beValue, List.foldl_cons, List.foldl_nil]
      congr 1
      · apply UInt8.toNat_inj.mp; rw [UInt8.toNat_ofNat']; omega
      congr 1
      · apply UInt8.toNat_inj.mp; rw [UInt8.toNat_ofNat']; omega
      congr 1
      · apply UInt8.toNat_inj.mp; rw [UInt8.toNat_ofNat']; omega
      congr 1
      · apply UInt8.toNat_inj.mp; rw [UInt8.toNat_ofNat']; omega

/-! ## Frames -/

namespace Message

theorem frame_length (m : Message) : m.frame.length = 4 + m.size := by
  simp [frame, size]

theorem frame_ne_nil (m : Message) : m.frame ≠ [] := by
  intro h
  have := m.frame_length
  rw [h] at this; simp at this; omega

theorem frame_take (m : Message) : m.frame.take 4 = u32ToBeBytes (UInt32.ofNat m.data.length) := rfl

theorem frame_drop (m : Message) : m.frame.drop 4 = m.data := rfl

theorem beValue_frame {m : Message} (h : m.size ≤ maxMessageSize) (r : Bytes) :
    beValue ((m.frame ++ r).take 4) = m.size := by
  have hlen := m.frame_length
  rw [List.take_append_of_le_length (by omega), frame_take, beValue_u32ToBeBytes, UInt32.toNat_ofNat']
  unfold size maxMessageSize at h
  exact Nat.mod_eq_of_lt (by omega)

theorem encode_eq_ok {m : Message} {f : Bytes} :
    m.encode = .ok f ↔ m.size ≤ maxMessageSize ∧ f = m.frame := by
  simp only [encode, size]
  split
  · rename_i h
    constructor
    · intro h'; cases h'
    · rintro ⟨h', _⟩; omega
  · rename_i h
    constructor
    · intro h'; cases h'; exact ⟨by omega, rfl⟩
    · rintro ⟨_, rfl⟩; rfl

end Message

theorem splitFrame_eq_some {s r : Bytes} {m : Message} :
    splitFrame s = some (m, r) ↔ m.size ≤ maxMessageSize ∧ s = m.frame ++ r := by
  constructor
  · intro h
    simp only [splitFrame] at h
    split at h
    · rename_i hc
      obtain ⟨h4, hmax, hlen⟩ := hc
      simp only [Option.some.injEq, Prod.mk.injEq] at h
      obtain ⟨rfl, rfl⟩ := h
      have hsize : ((s.drop 4).take (beValue (s.take 4))).length = beValue (s.take 4) := by
        rw [List.length_take, List.length_drop]; omega
      refine ⟨by rw [Message.size, hsize]; exact hmax, ?_⟩
      simp only [Message.frame, hsize]
      rw [u32ToBeBytes_beValue (by rw [List.length_take]; omega), List.append_assoc, ← List.drop_drop,
        List.take_append_drop, List.take_append_drop]
    · cases h
  · rintro ⟨hm, rfl⟩
    have hlen := m.frame_length
    have hbe := Message.beValue_frame hm r
    have hc : 4 ≤ (m.frame ++ r).length ∧ beValue ((m.frame ++ r).take 4) ≤ maxMessageSize ∧
        4 + beValue ((m.frame ++ r).take 4) ≤ (m.frame ++ r).length := by
      rw [hbe, List.length_append]; omega
    simp only [splitFrame, hc, and_self, if_true]
    rw [hbe, ← hlen, List.drop_left, List.drop_append_of_le_length (by omega), Message.frame_drop]
    show some (⟨(m.data ++ r).take m.data.length⟩, r) = some (m, r)
    rw [List.take_left]

/-- The prefix code of the wire format. -/
def messageCode : PrefixCode Message UInt8 where
  Valid m := m.size ≤ maxMessageSize
  enc := Message.frame
  dec := splitFrame
  dec_eq_some := splitFrame_eq_some
  enc_ne_nil := fun _ => Message.frame_ne_nil _

/-- The messages of the complete frames at the front of a stream. -/
abbrev frames (s : Bytes) : List Message := messageCode.parse s

abbrev encodeAll (ms : List Message) : Bytes := messageCode.encodeAll ms

/-! ## `decode` -/

theorem headerValue {buf : Bytes} (h : ¬ buf.length < headerSize) :
    (u32FromBeBytes (buf.take headerSize)).toNat = beValue (buf.take 4) := by
  unfold headerSize at *
  exact u32FromBeBytes_toNat (by rw [List.length_take]; omega)

/-- `decode` reports an oversized header, takes a complete frame off the buffer, or asks for more. -/
theorem decode_eq (buf : Bytes) :
    Message.decode buf =
      if Oversized buf then (.error (.messageTooLarge (beValue (buf.take 4)) maxMessageSize), buf)
      else match splitFrame buf with
        | some (m, r) => (.ok (some m), r)
        | none => (.ok none, buf) := by
  simp only [Message.decode]
  by_cases h4 : buf.length < headerSize
  · have hov : ¬ Oversized buf := by unfold Oversized; unfold headerSize at h4; omega
    have hsp : splitFrame buf = none := by
      unfold headerSize at h4
      simp only [splitFrame, ite_eq_right_iff]
      intro hc; omega
    simp [h4, hov, hsp]
  · have hval := headerValue h4
    simp only [h4, if_false, hval]
    unfold headerSize at h4
    by_cases hmax : beValue (buf.take 4) > maxMessageSize
    · have hov : Oversized buf := ⟨by omega, hmax⟩
      simp [hmax, hov]
    · have hov : ¬ Oversized buf := by unfold Oversized; omega
      simp only [hmax, hov, if_false]
      by_cases hlen : buf.length < headerSize + beValue (buf.take 4)
      · have hsp : splitFrame buf = none := by
          unfold headerSize at hlen
          simp only [splitFrame, ite_eq_right_iff]
          intro hc; omega
        simp [hlen, hsp]
      · have hc : 4 ≤ buf.length ∧ beValue (buf.take 4) ≤ maxMessageSize ∧
            4 + beValue (buf.take 4) ≤ buf.length := by
          unfold headerSize at hlen; omega
        have hsp : splitFrame buf = some (⟨(buf.drop 4).take (beValue (buf.take 4))⟩,
            buf.drop (4 + beValue (buf.take 4))) := by
          simp [splitFrame, hc]
        rw [if_neg hlen]
        simp only [hsp, headerSize, List.drop_drop]

theorem splitFrame_none_of_oversized {buf : Bytes} (h : Oversized buf) : splitFrame buf = none := by
  simp only [splitFrame, ite_eq_right_iff]
  intro hc
  have := h.2; omega

theorem decode_eq_some {buf r : Bytes} {m : Message} :
    Message.decode buf = (.ok (some m), r) ↔ splitFrame buf = some (m, r) := by
  rw [decode_eq]
  by_cases hov : Oversized buf
  · simp [hov, splitFrame_none_of_oversized hov]
  · simp only [hov, if_false]
    cases hs : splitFrame buf with
    | none => simp
    | some mr => obtain ⟨m', r'⟩ := mr; simp

theorem decode_eq_none {buf : Bytes} :
    (Message.decode buf).1 = .ok none ↔ ¬ Oversized buf ∧ splitFrame buf = none := by
  rw [decode_eq]
  by_cases hov : Oversized buf
  · simp [hov]
  · simp only [hov, if_false]
    cases hs : splitFrame buf with
    | none => simp
    | some mr => obtain ⟨m', r'⟩ := mr; simp

theorem decode_eq_error {buf : Bytes} {e : NetworkError} :
    (Message.decode buf).1 = .error e ↔
      Oversized buf ∧ e = .messageTooLarge (beValue (buf.take 4)) maxMessageSize := by
  rw [decode_eq]
  by_cases hov : Oversized buf
  · simp [hov, eq_comm]
  · simp only [hov, if_false]
    cases hs : splitFrame buf with
    | none => simp
    | some mr => obtain ⟨m', r'⟩ := mr; simp

theorem decode_none_buf {buf : Bytes} (h : (Message.decode buf).1 = .ok none) :
    (Message.decode buf).2 = buf := by
  obtain ⟨hov, hs⟩ := decode_eq_none.mp h
  rw [decode_eq]; simp [hov, hs]

theorem decode_error_buf {buf : Bytes} {e : NetworkError} (h : (Message.decode buf).1 = .error e) :
    (Message.decode buf).2 = buf := by
  obtain ⟨hov, _⟩ := decode_eq_error.mp h
  rw [decode_eq]; simp [hov]

theorem Oversized.append {buf : Bytes} (h : Oversized buf) (t : Bytes) : Oversized (buf ++ t) := by
  refine ⟨by have := h.1; rw [List.length_append]; omega, ?_⟩
  rw [List.take_append_of_le_length h.1]; exact h.2

/-! ## Buffers that stop inside a frame -/

theorem not_oversized_of_cut {m : Message} (hm : m.size ≤ maxMessageSize) {p q : Bytes}
    (h : m.frame = p ++ q) : ¬ Oversized p := by
  intro hov
  have hbe := Message.beValue_frame hm []
  rw [List.append_nil, h, List.take_append_of_le_length hov.1] at hbe
  have := hov.2; omega

theorem splitFrame_whole {m : Message} (hm : m.size ≤ maxMessageSize) :
    splitFrame m.frame = some (m, []) :=
  splitFrame_eq_some.mpr ⟨hm, (List.append_nil _).symm⟩

theorem length_lt_of_cut {m : Message} {p q : Bytes} (h : m.frame = p ++ q) (hq : q ≠ []) :
    p.length < 4 + m.size ∧ q.length = 4 + m.size - p.length := by
  have hlen := m.frame_length
  have hpos := List.length_pos_iff.mpr hq
  rw [h, List.length_append] at hlen
  omega

theorem incomplete_of_cut {m : Message} (hm : m.size ≤ maxMessageSize) {p q : Bytes}
    (h : m.frame = p ++ q) (hq : q ≠ []) : ¬ Oversized p ∧ splitFrame p = none :=
  ⟨not_oversized_of_cut hm h, PrefixCode.dec_of_cut (c := messageCode) hm h hq⟩

/-- A whole header of at most `MAX_MESSAGE_SIZE` with part of its payload begins some frame. -/
theorem exists_frame_of_incomplete {b : Bytes} (h4 : headerSize ≤ b.length) (hov : ¬ Oversized b)
    (hs : splitFrame b = none) : ∃ m : Message, m.size ≤ maxMessageSize ∧ b <+: m.frame ∧ b ≠ m.frame := by
  unfold headerSize at h4
  have hmax : beValue (b.take 4) ≤ maxMessageSize := by
    by_contra h
    exact hov ⟨h4, by omega⟩
  have hlen : b.length < 4 + beValue (b.take 4) := by
    by_contra h
    have hc : 4 ≤ b.length ∧ beValue (b.take 4) ≤ maxMessageSize ∧
        4 + beValue (b.take 4) ≤ b.length := by omega
    simp [splitFrame, hc] at hs
  -- the payload that is there, filled up to the announced length
  let data := b.drop 4 ++ List.replicate (4 + beValue (b.take 4) - b.length) (0 : UInt8)
  have hdata : data.length = beValue (b.take 4) := by
    simp only [data, List.length_append, List.length_drop, List.length_replicate]; omega
  have hframe : (Message.mk data).frame = b.take 4 ++ data := by
    simp only [Message.frame, hdata]
    rw [u32ToBeBytes_beValue (by rw [List.length_take]; omega)]
  refine ⟨⟨data⟩, by rw [Message.size, hdata]; exact hmax, ?_, ?_⟩
  · refine ⟨List.replicate (4 + beValue (b.take 4) - b.length) 0, ?_⟩
    rw [hframe]
    simp only [data]
    rw [← List.append_assoc, List.take_append_drop]
  · intro h
    have := congrArg List.length h
    rw [Message.frame_length, Message.size, hdata] at this; omega

/-! ## The verdicts of `decode`, in terms of `encode` -/

theorem decode_message_iff {b r : Bytes} {m : Message} : Message.decode b = (.ok (some m), r) ↔
    m.size ≤ maxMessageSize ∧ ∃ f, m.encode = .ok f ∧ b = f ++ r := by
  rw [decode_eq_some, splitFrame_eq_some]
  constructor
  · rintro ⟨hm, hb⟩
    exact ⟨hm, m.frame, Message.encode_eq_ok.mpr ⟨hm, rfl⟩, hb⟩
  · rintro ⟨hm, f, hf, hb⟩
    obtain ⟨_, rfl⟩ := Message.encode_eq_ok.mp hf
    exact ⟨hm, hb⟩

theorem decode_incomplete_iff {b : Bytes} : (Message.decode b).1 = .ok none ↔
    b.length < headerSize ∨ ∃ m f, Message.encode m = .ok f ∧ b <+: f ∧ b ≠ f := by
  rw [decode_eq_none]
  constructor
  · rintro ⟨hov, hs⟩
    by_cases h4 : b.length < headerSize
    · exact Or.inl h4
    · obtain ⟨m, hm, hp, hne⟩ := exists_frame_of_incomplete (Nat.not_lt.mp h4) hov hs
      exact Or.inr ⟨m, m.frame, Message.encode_eq_ok.mpr ⟨hm, rfl⟩, hp, hne⟩
  · rintro (h4 | ⟨m, f, hf, ⟨q, hq⟩, hne⟩)
    · unfold headerSize at h4
      refine ⟨fun hov => ?_, ?_⟩
      · have := hov.1; omega
      · simp only [splitFrame, ite_eq_right_iff]
        intro hc; omega
    · obtain ⟨hm, rfl⟩ := Message.encode_eq_ok.mp hf
      refine incomplete_of_cut hm hq.symm fun h => hne ?_
      rw [← hq, h, List.append_nil]

theorem decode_keeps {b : Bytes} (h : ∀ m, (Message.decode b).1 ≠ .ok (some m)) :
    (Message.decode b).2 = b := by
  cases hd : (Message.decode b).1 with
  | error e => exact decode_error_buf hd
  | ok o =>
      cases o with
      | none => exact decode_none_buf hd
      | some m => exact absurd hd (h m)

end NetworkSystem
