import NetworkSystem.Pool.ConnectionPool

/-!
# The walk through the queue

`remove_expired` takes out exactly the connections that the walk finds expired and leaves the others in
their order.
-/

namespace NetworkSystem

namespace ConnectionPool

variable {T : Type} {s : ConnectionPool T}

/-- Places before the last one can be removed as if the last one were not there. -/
theorem removeAll_concat {l : List (PooledConnection T)} {a : PooledConnection T} {total permits : Nat}
    {places : List Nat} (hdesc : places.Pairwise (· > ·)) (hlt : ∀ i ∈ places, i < l.length) :
    removeAll ⟨l ++ [a], total, permits⟩ places =
      ((removeAll ⟨l, total, permits⟩ places).map
        (fun s => { s with available := s.available ++ [a] }) id) := by
  induction places generalizing l total with
  | nil => rfl
  | cons i places ih =>
      obtain ⟨hi, hdesc⟩ := List.pairwise_cons.mp hdesc
      obtain ⟨hil, -⟩ := List.forall_mem_cons.mp hlt
      have hrest : ∀ j ∈ places, j < (l.eraseIdx i).length := by
        intro j hj
        have := hi j hj
        rw [List.length_eraseIdx_of_lt hil]
        omega
      have hget : (l ++ [a])[i]? = some l[i] := by
        rw [List.getElem?_append_left hil, List.getElem?_eq_getElem hil]
      rw [removeAll, removeAll, List.getElem?_eq_getElem hil]
      dsimp only
      rw [hget]
      dsimp only
      rw [List.eraseIdx_append_of_lt_length hil, ih hdesc hrest]
      rfl

/-- The places at which the walk finds something are those of a part of the queue, in its order. -/
theorem places_sublist {l : List (PooledConnection T)} (p : PooledConnection T × Nat → Bool) :
    ((l.zipIdx.filter p).map Prod.snd).Sublist (List.range' 0 l.length) := by
  rw [← List.zipIdx_map_snd 0 l]
  exact List.filter_sublist.map _

theorem removeAll_places (p : PooledConnection T × Nat → Bool) (l : List (PooledConnection T))
    (total permits : Nat) :
    removeAll ⟨l, total, permits⟩ ((l.zipIdx.filter p).map Prod.snd).reverse =
      (⟨(l.zipIdx.filter fun x => !p x).map Prod.fst, total - (l.zipIdx.filter p).length, permits⟩,
        ((l.zipIdx.filter p).map fun x => x.1.connection).reverse) := by
  induction l using List.reverseRecOn generalizing total with
  | nil => rfl
  | append_singleton l a ih =>
      have hzip : (l ++ [a]).zipIdx = l.zipIdx ++ [(a, l.length)] := by
        rw [List.zipIdx_append, Nat.zero_add]
        rfl
      rw [hzip, List.filter_append, List.filter_append]
      cases hp : p (a, l.length) with
      | true =>
          have hget : (l ++ [a])[l.length]? = some a := by simp
          have herase : (l ++ [a]).eraseIdx l.length = l := by
            rw [List.eraseIdx_append_of_length_le (le_refl _), Nat.sub_self]
            exact List.append_nil l
          have hsingle : [(a, l.length)].filter p = [(a, l.length)] := by simp [hp]
          have hnone : ([(a, l.length)].filter fun x => !p x) = [] := by simp [hp]
          have hplaces : ((l.zipIdx.filter p ++ [(a, l.length)]).map Prod.snd).reverse =
              l.length :: ((l.zipIdx.filter p).map Prod.snd).reverse := by
            simp
          have hexpired : ((l.zipIdx.filter p ++ [(a, l.length)]).map fun x => x.1.connection).reverse =
              a.connection :: ((l.zipIdx.filter p).map fun x => x.1.connection).reverse := by
            simp
          rw [hsingle, hnone, hplaces, hexpired, List.append_nil, removeAll]
          dsimp only
          rw [hget]
          dsimp only
          rw [herase, ih, List.length_append, List.length_singleton]
          simp only [Prod.map_apply, id_eq, Nat.sub_sub, Nat.add_comm]
      | false =>
          have hsingle : [(a, l.length)].filter p = [] := by simp [hp]
          have hkeep : ([(a, l.length)].filter fun x => !p x) = [(a, l.length)] := by simp [hp]
          have hplaces := places_sublist (l := l) p
          have hdesc : ((l.zipIdx.filter p).map Prod.snd).reverse.Pairwise (· > ·) :=
            List.pairwise_reverse.mpr (List.Pairwise.sublist hplaces List.pairwise_lt_range')
          have hlt : ∀ i ∈ ((l.zipIdx.filter p).map Prod.snd).reverse, i < l.length := by
            intro i hi
            have := hplaces.subset (List.mem_reverse.mp hi)
            rw [List.mem_range'_1] at this
            omega
          rw [hsingle, hkeep, List.append_nil, removeAll_concat hdesc hlt, ih, List.map_append]
          rfl

/-! ## What stays and what goes -/

section

variable (config : PoolConfig) (s : ConnectionPool T) (clock : SweepClock)

def unexpired : List (PooledConnection T) :=
  (s.available.zipIdx.filter fun pooled =>
    !pooled.1.isExpired config (clock pooled.2).1 (clock pooled.2).2).map Prod.fst

def expired : List (Connection T) :=
  (s.available.zipIdx.filter fun pooled =>
    pooled.1.isExpired config (clock pooled.2).1 (clock pooled.2).2).map fun pooled => pooled.1.connection

theorem removeExpired_eq : s.removeExpired config clock =
    ({ s with available := s.unexpired config clock
              totalConnections := s.totalConnections - (s.expired config clock).length },
      (s.expired config clock).reverse) := by
  rw [removeExpired, toRemove, removeAll_places, unexpired, expired, List.length_map]

theorem unexpired_length_add :
    (s.unexpired config clock).length + (s.expired config clock).length = s.available.length := by
  rw [unexpired, expired, List.length_map, List.length_map, Nat.add_comm,
    ← List.length_eq_length_filter_add, List.length_zipIdx]

end

theorem unexpired_subset {config : PoolConfig} {clock : SweepClock} {pooled : PooledConnection T}
    (h : pooled ∈ s.unexpired config clock) : pooled ∈ s.available := by
  obtain ⟨⟨a, i⟩, ha, rfl⟩ := List.mem_map.mp h
  exact List.fst_mem_of_mem_zipIdx (List.mem_filter.mp ha).1

end ConnectionPool

end NetworkSystem
