import Mathlib.Data.List.AList
import Mathlib.Data.List.Dedup

/-!
# Maps that forget what was not used for longest

A finite map whose keys stand in the order of their last use. Every use of a key, by `get` or by `put`,
makes it the latest, and a new key that finds the map full takes the place of the one that was not used for
longest.

An implementation may keep a queue of keys beside the map, in which a key can stand more than once and from
which a key that left the map need not be gone. The order of such a queue is that of the last places of the
keys, `recent`.
-/

universe u v

variable {K : Type u} {V : Type v} [DecidableEq K]

/-- The keys stand in the order of their last use, the latest first. -/
abbrev LruMap (K : Type u) (V : Type v) : Type (max u v) := AList fun _ : K => V

namespace LruMap

/-- The keys, the one that was not used for longest first. -/
def order (m : LruMap K V) : List K := m.keys.reverse

def evict (m : LruMap K V) : LruMap K V :=
  match m.order.head? with
  | some k => m.erase k
  | none => m

def put (capacity : Nat) (m : LruMap K V) (k : K) (v : V) : LruMap K V :=
  if capacity ≤ m.keys.length ∧ k ∉ m then (evict m).insert k v else m.insert k v

def get (m : LruMap K V) (k : K) : Option V × LruMap K V :=
  match m.lookup k with
  | some v => (some v, m.insert k v)
  | none => (none, m)

def remove (m : LruMap K V) (k : K) : Option V × LruMap K V := (m.lookup k, m.erase k)

variable {m : LruMap K V} {k : K}

omit [DecidableEq K] in
theorem mem_order : k ∈ order m ↔ k ∈ m := by
  rw [order, List.mem_reverse, AList.mem_keys]

theorem order_erase : order (m.erase k) = (order m).filter (· ≠ k) := by
  rw [order, AList.keys_erase, m.keys_nodup.erase_eq_filter, ← List.filter_reverse, order]
  refine List.filter_congr fun x _ => ?_
  rw [Bool.eq_iff_iff, bne_iff_ne, decide_eq_true_eq]

theorem order_insert {v : V} : order (m.insert k v) = (order m).filter (· ≠ k) ++ [k] := by
  rw [← order_erase, order, AList.keys_insert, List.reverse_cons, order, AList.keys_erase]

/-! ## Queues -/

/-- The keys of the queue that meet `p`, in the order of their last places. -/
def recent (p : K → Bool) (queue : List K) : List K := (queue.filter p).dedup

variable {p q : K → Bool} {queue : List K}

theorem mem_recent : k ∈ recent p queue ↔ k ∈ queue ∧ p k = true := by
  rw [recent, List.mem_dedup, List.mem_filter]

theorem dedup_filter (l : List K) : (l.filter p).dedup = l.dedup.filter p := by
  induction l with
  | nil => rfl
  | cons a l ih =>
      by_cases hp : p a = true
      · rw [List.filter_cons_of_pos hp]
        by_cases ha : a ∈ l
        · rw [List.dedup_cons_of_mem ha, List.dedup_cons_of_mem (List.mem_filter.mpr ⟨ha, hp⟩), ih]
        · have ha' : a ∉ l.filter p := fun h => ha (List.mem_filter.mp h).1
          rw [List.dedup_cons_of_notMem ha, List.dedup_cons_of_notMem ha', List.filter_cons_of_pos hp, ih]
      · rw [List.filter_cons_of_neg hp, ih]
        by_cases ha : a ∈ l
        · rw [List.dedup_cons_of_mem ha]
        · rw [List.dedup_cons_of_notMem ha, List.filter_cons_of_neg hp]

theorem dedup_concat (l : List K) : (l ++ [k]).dedup = l.dedup.filter (· ≠ k) ++ [k] := by
  induction l with
  | nil => rfl
  | cons a l ih =>
      by_cases hak : a = k
      · subst hak
        rw [List.cons_append, List.dedup_cons_of_mem (by simp), ih]
        by_cases ha : a ∈ l
        · rw [List.dedup_cons_of_mem ha]
        · rw [List.dedup_cons_of_notMem ha, List.filter_cons_of_neg (by simp)]
      · by_cases ha : a ∈ l
        · rw [List.cons_append, List.dedup_cons_of_mem (List.mem_append_left _ ha), ih,
            List.dedup_cons_of_mem ha]
        · have ha' : a ∉ l ++ [k] := by simp [ha, hak]
          rw [List.cons_append, List.dedup_cons_of_notMem ha', ih, List.dedup_cons_of_notMem ha,
            List.filter_cons_of_pos (by simpa using hak), List.cons_append]

/-- A key that leaves the map leaves the order, wherever the queue may still hold it. -/
theorem recent_without (hq : ∀ x, q x = true ↔ x ≠ k ∧ p x = true) :
    recent q queue = (recent p queue).filter (· ≠ k) := by
  rw [recent, recent, ← dedup_filter, List.filter_filter]
  congr 1
  refine List.filter_congr fun x _ => ?_
  rw [Bool.eq_iff_iff, hq x, Bool.and_eq_true, decide_eq_true_eq]

/-- A key at the back of the queue is the latest. -/
theorem recent_concat (hq : ∀ x, q x = true ↔ x = k ∨ p x = true) :
    recent q (queue ++ [k]) = (recent p queue).filter (· ≠ k) ++ [k] := by
  have hk : q k = true := (hq k).mpr (Or.inl rfl)
  rw [recent, List.filter_append, List.filter_cons_of_pos hk, List.filter_nil, dedup_concat, recent,
    ← dedup_filter, ← dedup_filter, List.filter_filter, List.filter_filter]
  congr 2
  refine List.filter_congr fun x _ => ?_
  rw [Bool.eq_iff_iff, Bool.and_eq_true, Bool.and_eq_true, hq x, decide_eq_true_eq]
  constructor
  · rintro ⟨hx, rfl | hp⟩
    · exact absurd rfl hx
    · exact ⟨hx, hp⟩
  · rintro ⟨hx, hp⟩
    exact ⟨hx, Or.inr hp⟩

/-- Where the key is no key of the map, or is moved anyway, its places in the queue do not matter. -/
theorem recent_erase (hp : p k = false) : recent p (queue.erase k) = recent p queue := by
  rw [recent, recent]
  congr 1
  induction queue with
  | nil => rfl
  | cons a queue ih =>
      rw [List.erase_cons]
      split
      · rename_i ha
        rw [List.filter_cons_of_neg (by simp [beq_iff_eq.mp ha, hp])]
      · rw [List.filter_cons, List.filter_cons, ih]

end LruMap
