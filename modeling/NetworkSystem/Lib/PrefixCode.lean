import Mathlib.Data.List.Infix

/-!
# Streams of self-delimiting frames

A prefix code gives every valid item a nonempty frame such that a stream determines the frame it begins
with, whatever follows. `parse` reads a stream as consecutive frames, up to a rest that begins with no
complete frame.

The laws below say how the reading behaves when a stream grows or is cut: a reader that has taken
complete frames off the front of a stream has always returned a prefix of the reading of the whole.
-/

universe u v

/-- Frames for the items of `α` in streams over `β`. The function `dec` takes the first frame off a
stream; the law `dec_eq_some` says that it recognises exactly the frames of valid items. -/
structure PrefixCode (α : Type u) (β : Type v) where
  Valid : α → Prop
  enc : α → List β
  dec : List β → Option (α × List β)
  dec_eq_some : ∀ {s a r}, dec s = some (a, r) ↔ Valid a ∧ s = enc a ++ r
  enc_ne_nil : ∀ {a}, Valid a → enc a ≠ []

namespace PrefixCode

variable {α : Type u} {β : Type v} (c : PrefixCode α β)

/-- The frames of the items, one after another. -/
def encodeAll (as : List α) : List β := as.flatMap c.enc

/-- Take at most `n` frames off the stream: the items, and what is left of the stream. -/
def take : Nat → List β → List α × List β
  | 0, s => ([], s)
  | n + 1, s =>
      match c.dec s with
      | none => ([], s)
      | some (a, r) => (a :: (take n r).1, (take n r).2)

/-- The items of the complete frames at the front of the stream. -/
def parse (s : List β) : List α := (c.take s.length s).1

variable {c}

/-! ## One frame -/

theorem dec_enc {a : α} (ha : c.Valid a) (r : List β) : c.dec (c.enc a ++ r) = some (a, r) :=
  c.dec_eq_some.mpr ⟨ha, rfl⟩

theorem dec_append {s r : List β} {a : α} (h : c.dec s = some (a, r)) (t : List β) :
    c.dec (s ++ t) = some (a, r ++ t) := by
  obtain ⟨ha, rfl⟩ := c.dec_eq_some.mp h
  rw [List.append_assoc]; exact dec_enc ha _

theorem dec_length {s r : List β} {a : α} (h : c.dec s = some (a, r)) : r.length < s.length := by
  obtain ⟨ha, rfl⟩ := c.dec_eq_some.mp h
  have := List.length_pos_iff.mpr (c.enc_ne_nil ha)
  rw [List.length_append]; omega

theorem dec_of_cut {a : α} (ha : c.Valid a) {p q : List β} (h : c.enc a = p ++ q) (hq : q ≠ []) :
    c.dec p = none := by
  cases hp : c.dec p with
  | none => rfl
  | some br =>
      obtain ⟨b, r⟩ := br
      have h₁ := dec_append hp q
      rw [← h, ← List.append_nil (c.enc a), dec_enc ha] at h₁
      simp only [Option.some.injEq, Prod.mk.injEq] at h₁
      exact absurd (List.append_eq_nil_iff.mp h₁.2.symm).2 hq

/-! ## Many frames -/

@[simp]
theorem encodeAll_nil : c.encodeAll [] = [] := rfl

@[simp]
theorem encodeAll_cons (a : α) (as : List α) : c.encodeAll (a :: as) = c.enc a ++ c.encodeAll as := by
  simp [encodeAll]

@[simp]
theorem encodeAll_append (as bs : List α) :
    c.encodeAll (as ++ bs) = c.encodeAll as ++ c.encodeAll bs := by
  simp [encodeAll]

theorem take_of_le : ∀ {n m : Nat} {s : List β}, s.length ≤ n → s.length ≤ m → c.take n s = c.take m s
  | 0, 0, s, _, _ => rfl
  | 0, m + 1, s, hn, _ => by
      have hs : s = [] := List.length_eq_zero_iff.mp (by omega)
      cases hd : c.dec s with
      | none => simp [take, hd]
      | some ar => have := dec_length hd; simp [hs] at this
  | n + 1, 0, s, _, hm => by
      have hs : s = [] := List.length_eq_zero_iff.mp (by omega)
      cases hd : c.dec s with
      | none => simp [take, hd]
      | some ar => have := dec_length hd; simp [hs] at this
  | n + 1, m + 1, s, hn, hm => by
      cases hd : c.dec s with
      | none => simp [take, hd]
      | some ar =>
          obtain ⟨a, r⟩ := ar
          have hr := dec_length hd
          simp only [take, hd]
          rw [take_of_le (n := n) (m := m) (by omega) (by omega)]

theorem parse_of_dec_none {s : List β} (h : c.dec s = none) : c.parse s = [] := by
  unfold parse
  cases s.length with
  | zero => rfl
  | succ n => simp [take, h]

theorem parse_of_dec_some {s r : List β} {a : α} (h : c.dec s = some (a, r)) :
    c.parse s = a :: c.parse r := by
  have hr := dec_length h
  have htake : c.take s.length s = (a :: (c.take r.length r).1, (c.take r.length r).2) := by
    obtain ⟨n, hn⟩ : ∃ n, s.length = n + 1 := ⟨s.length - 1, by omega⟩
    rw [hn]
    simp only [take, h]
    rw [take_of_le (n := n) (m := r.length) (by omega) (Nat.le_refl _)]
  rw [parse, htake]; rfl

/-- Complete frames at the front are read first; the reading goes on behind them. -/
theorem parse_encodeAll_append {as : List α} (h : ∀ a ∈ as, c.Valid a) (s : List β) :
    c.parse (c.encodeAll as ++ s) = as ++ c.parse s := by
  induction as with
  | nil => rfl
  | cons a as ih =>
      have hd := dec_enc (h a (by simp)) (c.encodeAll as ++ s)
      rw [encodeAll_cons, List.append_assoc, parse_of_dec_some hd, ih fun b hb => h b (by simp [hb])]
      rfl

theorem parse_encodeAll {as : List α} (h : ∀ a ∈ as, c.Valid a) : c.parse (c.encodeAll as) = as := by
  have hn : c.parse [] = [] := rfl
  have := parse_encodeAll_append h []
  rwa [List.append_nil, hn, List.append_nil] at this

/-- A reader that has taken complete frames off the front of a stream has returned a prefix of its
reading. -/
theorem prefix_parse {as : List α} (h : ∀ a ∈ as, c.Valid a) {s : List β} (hs : c.encodeAll as <+: s) :
    as <+: c.parse s := by
  obtain ⟨t, rfl⟩ := hs
  rw [parse_encodeAll_append h]
  exact List.prefix_append _ _

/-- What is read as frames are the frames at the front of the stream. -/
theorem encodeAll_parse (s : List β) : c.encodeAll (c.parse s) <+: s ∧ ∀ a ∈ c.parse s, c.Valid a := by
  cases hd : c.dec s with
  | none =>
      rw [parse_of_dec_none hd]
      exact ⟨List.nil_prefix, by simp⟩
  | some ar =>
      obtain ⟨a, r⟩ := ar
      have hr := dec_length hd
      obtain ⟨⟨t, ht⟩, hvalid⟩ := encodeAll_parse r
      obtain ⟨ha, rfl⟩ := c.dec_eq_some.mp hd
      rw [parse_of_dec_some hd]
      refine ⟨⟨t, ?_⟩, ?_⟩
      · rw [encodeAll_cons, List.append_assoc, ht]
      · intro b hb
        rcases List.mem_cons.mp hb with rfl | hb
        · exact ha
        · exact hvalid b hb
  termination_by s.length

/-- A stream that grows is read as more frames behind those it was read as. -/
theorem parse_mono {s t : List β} (h : s <+: t) : c.parse s <+: c.parse t :=
  prefix_parse (encodeAll_parse s).2 ((encodeAll_parse s).1.trans h)

theorem parse_cut {as : List α} (h : ∀ a ∈ as, c.Valid a) {a : α} (ha : c.Valid a) {p q : List β}
    (hpq : c.enc a = p ++ q) (hq : q ≠ []) : c.parse (c.encodeAll as ++ p) = as := by
  rw [parse_encodeAll_append h, parse_of_dec_none (dec_of_cut ha hpq hq), List.append_nil]

end PrefixCode
