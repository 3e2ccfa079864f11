import Mathlib.Algebra.Group.Nat.Defs
import Mathlib.Data.List.Forall2

/-!
# Hexadecimal text

Bytes are written with two digits each, the high half first. A text spells bytes where, without its separators, it
has their digits in either case. In upper case such a text is the one that the bytes are written as, and no two lists
of bytes are written alike.

A number is written in lower case with a fixed count of digits. No two numbers that fit are written alike.
-/

namespace Hex

/-- The values of the two digits of a byte. -/
def halves (b : UInt8) : List (Fin 16) := [.ofNat 16 (b.toNat / 16), .ofNat 16 (b.toNat % 16)]

/-- The digit in upper case. -/
def digit (d : Fin 16) : Char :=
  ['0', '1', '2', '3', '4', '5', '6', '7', '8', '9', 'A', 'B', 'C', 'D', 'E', 'F'].get d

def written (bytes : List UInt8) : List Char := bytes.flatMap fun b => (halves b).map digit

def IsDigit (d : Fin 16) (c : Char) : Prop := c = digit d ∨ c = (digit d).toLower

instance (d : Fin 16) (c : Char) : Decidable (IsDigit d c) := inferInstanceAs (Decidable (_ ∨ _))

def Spells (sep : Char) (bytes : List UInt8) (text : List Char) : Prop :=
  List.Forall₂ IsDigit (bytes.flatMap halves) (text.filter (· != sep))

instance (sep : Char) (bytes : List UInt8) (text : List Char) : Decidable (Spells sep bytes text) :=
  inferInstanceAs (Decidable (List.Forall₂ _ _ _))

/-- The low `w` digits of a number, the highest first. -/
def low : Nat → Nat → List (Fin 16)
  | 0, _ => []
  | w + 1, n => low w (n / 16) ++ [.ofNat 16 (n % 16)]

def padded (w n : Nat) : List Char := (low w n).map fun d => (digit d).toLower

/-! ## Digits -/

theorem digit_inj : ∀ {d e : Fin 16}, digit d = digit e → d = e := by decide

theorem IsDigit.toUpper {d : Fin 16} {c : Char} (h : IsDigit d c) : c.toUpper = digit d := by
  have hupper : ∀ d, (digit d).toUpper = digit d := by decide
  have hlower : ∀ d, (digit d).toLower.toUpper = digit d := by decide
  rcases h with rfl | rfl
  · exact hupper d
  · exact hlower d

theorem IsDigit.ascii {d : Fin 16} {c : Char} (h : IsDigit d c) : c.toNat < 128 := by
  have hupper : ∀ d, (digit d).toNat < 128 := by decide
  have hlower : ∀ d, (digit d).toLower.toNat < 128 := by decide
  rcases h with rfl | rfl
  · exact hupper d
  · exact hlower d

theorem halves_inj {b c : UInt8} (h : halves b = halves c) : b = c := by
  have hb := b.toNat_lt
  have hc := c.toNat_lt
  simp only [halves, List.cons.injEq, Fin.ext_iff, Fin.val_ofNat, and_true] at h
  apply UInt8.toNat.inj
  omega

/-! ## Bytes -/

theorem written_eq (bytes : List UInt8) : written bytes = (bytes.flatMap halves).map digit :=
  List.map_flatMap.symm

/-- Two digits for each byte: the text can be cut into its bytes again. -/
theorem flatMap_halves_inj : ∀ {bs cs : List UInt8}, bs.flatMap halves = cs.flatMap halves → bs = cs
  | [], [], _ => rfl
  | [], _ :: _, h => by cases h
  | _ :: _, [], h => by cases h
  | b :: bs, c :: cs, h => by
      have hhead : halves b = halves c := congrArg (List.take 2) h
      have htail : bs.flatMap halves = cs.flatMap halves := congrArg (List.drop 2) h
      rw [halves_inj hhead, flatMap_halves_inj htail]

theorem written_inj {bs cs : List UInt8} (h : written bs = written cs) : bs = cs := by
  rw [written_eq, written_eq] at h
  exact flatMap_halves_inj (List.map_injective_iff.mpr (fun _ _ => digit_inj) h)

/-- Whatever the case and the separators of a text that spells the bytes, a function that puts its digits into upper
case makes of it the text that the bytes are written as. -/
theorem Spells.normalised {sep : Char} {bytes : List UInt8} {text : List Char} {f : Char → List Char}
    (h : Spells sep bytes text) (hf : ∀ d c, IsDigit d c → f c = [digit d]) :
    (text.filter (· != sep)).flatMap f = written bytes := by
  have hdigits : ∀ {ds : List (Fin 16)} {cs : List Char}, List.Forall₂ IsDigit ds cs →
      cs.flatMap f = ds.map digit := by
    intro ds cs hds
    induction hds with
    | nil => rfl
    | cons hd _ ih => rw [List.flatMap_cons, hf _ _ hd, ih, List.map_cons, List.singleton_append]
  rw [written_eq]
  exact hdigits h

/-! ## Numbers -/

theorem low_inj : ∀ {w n m : Nat}, n < 16 ^ w → m < 16 ^ w → low w n = low w m → n = m
  | 0, n, m, hn, hm, _ => by
      rw [Nat.pow_zero] at hn hm
      omega
  | w + 1, n, m, hn, hm, h => by
      have hdigits := List.append_inj' h rfl
      have hhigh : n / 16 = m / 16 :=
        low_inj (Nat.div_lt_of_lt_mul (Nat.pow_succ' ▸ hn)) (Nat.div_lt_of_lt_mul (Nat.pow_succ' ▸ hm)) hdigits.1
      have hlow : n % 16 = m % 16 := by
        have hlast := List.singleton_inj.mp hdigits.2
        simpa only [Fin.ext_iff, Fin.val_ofNat, Nat.mod_mod] using hlast
      omega

theorem padded_inj {w n m : Nat} (hn : n < 16 ^ w) (hm : m < 16 ^ w) (h : padded w n = padded w m) : n = m := by
  have hlower : Function.Injective fun d => (digit d).toLower := by
    intro d e
    revert d e
    decide
  exact low_inj hn hm (List.map_injective_iff.mpr hlower h)

end Hex
