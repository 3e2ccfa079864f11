import NetworkSystem.Lib.PrefixCode
import NetworkSystem.Lib.Steps

/-!
# A writer that puts frames on a stream

One frame is written at a time: it begins, its bytes go out in pieces of any size, and it ends either
with the whole frame on the stream or by being abandoned before that. An abandoned frame of which some
bytes are out is torn: the stream stops inside it.

As long as nothing is put on the stream behind a torn frame, the stream is a prefix of whole frames and
its reader gets exactly the items whose frames ended (`Intact.prefix`, `Intact.parse`).
-/

universe u v

namespace FrameWriter

/-- The frame that is being written: its item, the bytes that are out and the bytes that are not. -/
structure InFlight (α : Type u) (β : Type v) where
  item : α
  put : List β
  rest : List β
  deriving Repr, DecidableEq

/-- The stream so far, the frame in flight, and the history: the items whose frames began, those whose
frames are wholly out, and whether a frame was torn. -/
structure Writer (α : Type u) (β : Type v) where
  written : List β := []
  inFlight : Option (InFlight α β) := none
  begun : List α := []
  delivered : List α := []
  torn : Bool := false
  deriving Repr, DecidableEq

inductive Event (α : Type u) where
  | begin (a : α)
  | put (k : Nat)
  | finish
  | abandon
  deriving Repr, DecidableEq

variable {α : Type u} {β : Type v} {c : PrefixCode α β}

def Writer.begin (w : Writer α β) (a : α) (frame : List β) : Option (Writer α β) :=
  match w.inFlight with
  | none => some { w with inFlight := some ⟨a, [], frame⟩, begun := w.begun ++ [a] }
  | some _ => none

/-- Put the next `k` bytes of the frame in flight on the stream. -/
def Writer.put (w : Writer α β) (k : Nat) : Option (Writer α β) :=
  match w.inFlight with
  | none => none
  | some f =>
      if 0 < k ∧ k ≤ f.rest.length then
        some { w with
          written := w.written ++ f.rest.take k
          inFlight := some { f with put := f.put ++ f.rest.take k, rest := f.rest.drop k } }
      else none

def Writer.finish (w : Writer α β) : Option (Writer α β) :=
  match w.inFlight with
  | none => none
  | some f =>
      if f.rest = [] then some { w with inFlight := none, delivered := w.delivered ++ [f.item] }
      else none

/-- Give up the frame in flight, some of whose bytes are not out. -/
def Writer.abandon (w : Writer α β) : Option (Writer α β) :=
  match w.inFlight with
  | none => none
  | some f =>
      if f.rest = [] then none
      else some { w with inFlight := none, torn := w.torn || !f.put.isEmpty }

def step (c : PrefixCode α β) (w : Writer α β) : Event α → Option (Writer α β)
  | .begin a => w.begin a (c.enc a)
  | .put k => w.put k
  | .finish => w.finish
  | .abandon => w.abandon

/-- The writer has put whole frames on the stream, then at most the beginning of one more. That one is
the frame in flight, or a torn frame behind which nothing was put. The items of all of them began in that
order. -/
structure Intact (c : PrefixCode α β) (w : Writer α β) : Prop where
  valid : ∀ a ∈ w.begun, c.Valid a
  flight : ∀ f, w.inFlight = some f → c.enc f.item = f.put ++ f.rest
  whole : w.torn = false →
    (w.delivered ++ (w.inFlight.map InFlight.item).toList).Sublist w.begun ∧
      w.written = c.encodeAll w.delivered ++ (w.inFlight.map InFlight.put).getD []
  cut : w.torn = true →
    (∃ a p q, (w.delivered ++ [a]).Sublist w.begun ∧ c.enc a = p ++ q ∧ q ≠ [] ∧
      w.written = c.encodeAll w.delivered ++ p) ∧
      ∀ f, w.inFlight = some f → f.item ∈ w.begun ∧ f.put = []

theorem Intact.init : Intact c {} where
  valid := by simp
  flight := by simp
  whole := by simp
  cut := by simp

/-! ## One lemma for each step -/

theorem Intact.begin {w w' : Writer α β} {a : α} (hw : Intact c w) (ha : c.Valid a)
    (h : w.begin a (c.enc a) = some w') : Intact c w' := by
  unfold Writer.begin at h
  split at h
  · rename_i hn
    cases h
    refine ⟨?_, ?_, fun ht => ?_, fun ht => ⟨?_, ?_⟩⟩
    · intro b hb
      rcases List.mem_append.mp hb with hb | hb
      · exact hw.valid b hb
      · simp only [List.mem_singleton] at hb; subst hb; exact ha
    · intro f hf; cases hf; simp
    · obtain ⟨hsub, hwr⟩ := hw.whole ht
      rw [hn] at hsub hwr
      simp only [Option.map_none, Option.toList_none, List.append_nil, Option.getD_none] at hsub hwr
      exact ⟨hsub.append (List.Sublist.refl _), by simpa using hwr⟩
    · obtain ⟨⟨b, p, q, hsub, h⟩, _⟩ := hw.cut ht
      exact ⟨b, p, q, hsub.trans (List.sublist_append_left _ _), h⟩
    · intro f hf; cases hf; simp
  · cases h

theorem Intact.put {w w' : Writer α β} {k : Nat} (hw : Intact c w) (ht : w.torn = false)
    (h : w.put k = some w') : Intact c w' := by
  unfold Writer.put at h
  split at h
  · cases h
  · rename_i f hf
    split at h
    · cases h
      refine ⟨hw.valid, ?_, fun _ => ?_, fun ht' => ?_⟩
      · intro g hg
        cases hg
        have he := hw.flight f hf
        simp [he]
      · obtain ⟨hsub, hwr⟩ := hw.whole ht
        simp only [hf, Option.map_some, Option.toList_some, Option.getD_some] at hsub hwr ⊢
        exact ⟨hsub, by rw [hwr, List.append_assoc]⟩
      · simp only [ht, Bool.false_eq_true] at ht'
    · cases h

theorem Intact.finish {w w' : Writer α β} (hw : Intact c w) (h : w.finish = some w') : Intact c w' := by
  unfold Writer.finish at h
  split at h
  · cases h
  · rename_i f hf
    split at h
    · rename_i hr
      cases h
      have he := hw.flight f hf
      rw [hr, List.append_nil] at he
      refine ⟨hw.valid, by simp, fun ht => ?_, fun ht => ?_⟩
      · obtain ⟨hsub, hwr⟩ := hw.whole ht
        simp only [hf, Option.map_some, Option.toList_some, Option.getD_some] at hsub hwr
        exact ⟨by simpa using hsub, by simp [hwr, he]⟩
      · -- behind a torn frame no byte went out, so a frame cannot have ended
        obtain ⟨hm, hp⟩ := (hw.cut ht).2 f hf
        exact absurd (he.trans hp) (c.enc_ne_nil (hw.valid _ hm))
    · cases h

theorem Intact.abandon {w w' : Writer α β} (hw : Intact c w) (h : w.abandon = some w') :
    Intact c w' := by
  unfold Writer.abandon at h
  split at h
  · cases h
  · rename_i f hf
    split at h
    · cases h
    · rename_i hr
      cases h
      have he := hw.flight f hf
      refine ⟨hw.valid, by simp, fun ht => ?_, fun ht => ⟨?_, by simp⟩⟩
      · simp only [Bool.or_eq_false_iff, Bool.not_eq_eq_eq_not, Bool.not_false, List.isEmpty_iff] at ht
        obtain ⟨hsub, hwr⟩ := hw.whole ht.1
        simp only [hf, Option.map_some, Option.toList_some, Option.getD_some, ht.2] at hsub hwr
        exact ⟨by simpa using (List.sublist_append_left _ _).trans hsub, by simpa using hwr⟩
      · cases htorn : w.torn with
        | true => exact (hw.cut htorn).1
        | false =>
            obtain ⟨hsub, hwr⟩ := hw.whole htorn
            simp only [hf, Option.map_some, Option.toList_some, Option.getD_some] at hsub hwr
            exact ⟨f.item, f.put, f.rest, hsub, he, hr, hwr⟩

/-- A writer that puts nothing behind a torn frame stays intact. -/
theorem Intact.step {w w' : Writer α β} {e : Event α} (hw : Intact c w)
    (hbegin : ∀ a, e = .begin a → c.Valid a) (hput : ∀ k, e = .put k → w.torn = false)
    (h : step c w e = some w') : Intact c w' := by
  cases e with
  | begin a => exact hw.begin (hbegin a rfl) h
  | put k => exact hw.put (hput k rfl) h
  | finish => exact hw.finish h
  | abandon => exact hw.abandon h

/-! ## What a step does -/

theorem Writer.begin_eq_some {w w' : Writer α β} {a : α} {frame : List β} : w.begin a frame = some w' ↔
    w.inFlight = none ∧ w' = { w with inFlight := some ⟨a, [], frame⟩, begun := w.begun ++ [a] } := by
  unfold Writer.begin
  cases hf : w.inFlight with
  | none => simpa [hf] using eq_comm
  | some f => simp

theorem Writer.put_eq_some {w w' : Writer α β} {k : Nat} : w.put k = some w' ↔
    ∃ f, w.inFlight = some f ∧ (0 < k ∧ k ≤ f.rest.length) ∧
      w' = { w with
        written := w.written ++ f.rest.take k
        inFlight := some { f with put := f.put ++ f.rest.take k, rest := f.rest.drop k } } := by
  unfold Writer.put
  cases hf : w.inFlight with
  | none => simp
  | some f => simp [eq_comm]

theorem Writer.finish_eq_some {w w' : Writer α β} : w.finish = some w' ↔
    ∃ f, w.inFlight = some f ∧ f.rest = [] ∧
      w' = { w with inFlight := none, delivered := w.delivered ++ [f.item] } := by
  unfold Writer.finish
  cases hf : w.inFlight with
  | none => simp
  | some f => simp [eq_comm]

theorem Writer.abandon_eq_some {w w' : Writer α β} : w.abandon = some w' ↔
    ∃ f, w.inFlight = some f ∧ f.rest ≠ [] ∧
      w' = { w with inFlight := none, torn := w.torn || !f.put.isEmpty } := by
  unfold Writer.abandon
  cases hf : w.inFlight with
  | none => simp
  | some f => simp [eq_comm]

/-- Each frame that is out, torn or in flight has begun. -/
def Writer.Counted (w : Writer α β) : Prop :=
  w.delivered.length + w.torn.toNat + w.inFlight.isSome.toNat ≤ w.begun.length

theorem Writer.Counted.step {w w' : Writer α β} {e : Event α} (hw : w.Counted) (h : step c w e = some w') :
    w'.Counted := by
  unfold Counted at hw ⊢
  cases e with
  | begin a =>
      obtain ⟨hf, rfl⟩ := Writer.begin_eq_some.mp h
      simp only [hf, Option.isSome_none, Bool.toNat_false, Option.isSome_some, Bool.toNat_true,
        List.length_append, List.length_singleton] at hw ⊢
      omega
  | put k =>
      obtain ⟨f, hf, _, rfl⟩ := Writer.put_eq_some.mp h
      rw [hf] at hw
      exact hw
  | finish =>
      obtain ⟨f, hf, _, rfl⟩ := Writer.finish_eq_some.mp h
      simp only [hf, Option.isSome_none, Bool.toNat_false, Option.isSome_some, Bool.toNat_true,
        List.length_append, List.length_singleton] at hw ⊢
      omega
  | abandon =>
      obtain ⟨f, hf, _, rfl⟩ := Writer.abandon_eq_some.mp h
      have htorn : (w.torn || !f.put.isEmpty).toNat ≤ w.torn.toNat + 1 := by
        cases w.torn <;> cases f.put.isEmpty <;> decide
      simp only [hf, Option.isSome_none, Bool.toNat_false, Option.isSome_some, Bool.toNat_true] at hw ⊢
      omega

/-! ## What an intact stream is worth -/

variable {w : Writer α β}

/-- The stream is a prefix of whole frames of items whose frames began in that order. -/
theorem Intact.prefix (hw : Intact c w) : ∃ as, as.Sublist w.begun ∧ w.written <+: c.encodeAll as := by
  have hsnoc : ∀ a p q, (w.delivered ++ [a]).Sublist w.begun → c.enc a = p ++ q →
      w.written = c.encodeAll w.delivered ++ p →
      ∃ as, as.Sublist w.begun ∧ w.written <+: c.encodeAll as := by
    intro a p q hsub he hwr
    exact ⟨w.delivered ++ [a], hsub, q, by simp [hwr, he]⟩
  cases ht : w.torn with
  | true =>
      obtain ⟨⟨a, p, q, hsub, he, _, hwr⟩, _⟩ := hw.cut ht
      exact hsnoc a p q hsub he hwr
  | false =>
      obtain ⟨hsub, hwr⟩ := hw.whole ht
      cases hf : w.inFlight with
      | none =>
          rw [hf] at hsub hwr
          exact ⟨w.delivered, by simpa using hsub, by rw [hwr]; simp⟩
      | some f =>
          rw [hf] at hsub hwr
          exact hsnoc f.item f.put f.rest hsub (hw.flight f hf) hwr

theorem Intact.delivered_sublist (hw : Intact c w) : w.delivered.Sublist w.begun := by
  cases ht : w.torn with
  | true =>
      obtain ⟨⟨a, p, q, hsub, _⟩, _⟩ := hw.cut ht
      exact (List.sublist_append_left _ _).trans hsub
  | false => exact (List.sublist_append_left _ _).trans (hw.whole ht).1

/-- The reader of the stream gets the items whose frames ended, in order, then at most the item in
flight, when its frame is wholly out. -/
theorem Intact.parse (hw : Intact c w) :
    c.parse w.written = w.delivered ∨
      ∃ f, w.inFlight = some f ∧ (w.delivered ++ [f.item]).Sublist w.begun ∧
        c.parse w.written = w.delivered ++ [f.item] := by
  have hd : ∀ a ∈ w.delivered, c.Valid a := fun a ha => hw.valid a (hw.delivered_sublist.subset ha)
  cases ht : w.torn with
  | true =>
      obtain ⟨⟨a, p, q, hsub, he, hq, hwr⟩, _⟩ := hw.cut ht
      left; rw [hwr]
      exact PrefixCode.parse_cut hd (hw.valid a (hsub.subset (by simp))) he hq
  | false =>
      obtain ⟨hsub, hwr⟩ := hw.whole ht
      cases hf : w.inFlight with
      | none =>
          left; rw [hwr, hf]
          simpa using PrefixCode.parse_encodeAll hd
      | some f =>
          have he := hw.flight f hf
          simp only [hf, Option.map_some, Option.toList_some, Option.getD_some] at hsub hwr
          have hall : ∀ a ∈ w.delivered ++ [f.item], c.Valid a := fun a ha =>
            hw.valid a (hsub.subset ha)
          by_cases hr : f.rest = []
          · right
            refine ⟨f, rfl, hsub, ?_⟩
            rw [hr, List.append_nil] at he
            have := PrefixCode.parse_encodeAll hall
            rwa [PrefixCode.encodeAll_append, PrefixCode.encodeAll_cons, PrefixCode.encodeAll_nil,
              List.append_nil, he, ← hwr] at this
          · left; rw [hwr]
            exact PrefixCode.parse_cut hd (hall f.item (by simp)) he hr

theorem Intact.parse_sublist (hw : Intact c w) : (c.parse w.written).Sublist w.begun := by
  rcases hw.parse with h | ⟨f, _, hsub, h⟩
  · rw [h]; exact hw.delivered_sublist
  · rw [h]; exact hsub

theorem Intact.delivered_prefix (hw : Intact c w) : w.delivered <+: c.parse w.written := by
  rcases hw.parse with h | ⟨f, _, _, h⟩ <;> rw [h]
  exact List.prefix_append _ _

end FrameWriter
