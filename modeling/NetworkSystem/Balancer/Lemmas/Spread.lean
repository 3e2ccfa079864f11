import NetworkSystem.Balancer.Lemmas.SelectCalls

/-!
# How far the counters come apart

A call under `Strategy::LeastConnections` chooses by counters that others may have raised since it read them. What it
read is no more than the counter of any entry that stays in rotation; so a counter is ahead of that one by no more
than the calls that were at it together when it drew level.
-/

namespace NetworkSystem

open TaskPool Steps Handles LoadBalancer

/-! ## Counts that were read before -/

/-- `n` has come from `n₀`, and `pending m` calls are about to raise it that have read at most `m`. Wherever it has
passed a number that is not below the floor, it is ahead of it by no more than `k`, the calls that are about to raise
it included. -/
def SpreadKept (k n₀ n floor : Nat) (pending : Nat → Nat) : Prop :=
  ∀ m, floor ≤ m → m < n → n + pending m ≤ m + k ∨ n ≤ n₀ ∧ pending m = 0

variable {k n₀ n n' floor floor' : Nat} {pending pending' : Nat → Nat}

theorem SpreadKept.start (hpending : ∀ m, pending m = 0) : SpreadKept k n n floor pending :=
  fun m _ _ => Or.inr ⟨le_refl n, hpending m⟩

theorem SpreadKept.mono (h : SpreadKept k n₀ n floor pending) (hn : n' ≤ n) (hfloor : floor ≤ floor')
    (hpending : ∀ m, m < n' → pending' m ≤ pending m) : SpreadKept k n₀ n' floor' pending' := by
  intro m hm hlt
  have hle := hpending m hlt
  rcases h m (hfloor.trans hm) (Nat.lt_of_lt_of_le hlt hn) with hspread | ⟨hstart, hnone⟩
  · exact Or.inl (by omega)
  · exact Or.inr (by omega)

/-- One of at most `k` calls raises the counter, and it has read no more than the floor. -/
theorem SpreadKept.raise (h : SpreadKept k n₀ n floor pending) (hk : ∀ m, pending m ≤ k)
    (hpending : ∀ m, floor ≤ m → pending' m + 1 = pending m) : SpreadKept k n₀ (n + 1) floor pending' := by
  intro m hm hlt
  have hone := hpending m hm
  have hbound := hk m
  rcases Nat.lt_succ_iff_lt_or_eq.mp hlt with hlt | rfl
  · rcases h m hm hlt with hspread | ⟨-, hnone⟩
    · exact Or.inl (by omega)
    · omega
  · exact Or.inl (by omega)

theorem SpreadKept.le (h : SpreadKept k n₀ n floor pending) : n ≤ max n₀ (floor + k) := by
  by_cases hlt : floor < n
  · rcases h floor (le_refl _) hlt with hspread | ⟨hstart, -⟩
    · exact le_max_of_le_right (by omega)
    · exact le_max_of_le_left hstart
  · exact le_max_of_le_right (by omega)

/-! ## One step -/

namespace BalancerCall

/-- The least counter that the call has read so far is that of entry `r`, and was at most `m`. -/
def readAtMost (r m : Nat) : BalancerCall → Bool
  | .counting _ (some (r', n)) => r' == r && decide (n ≤ m)
  | _ => false

/-- The call has entry `r` still before it, or has read a counter that is at most `n`. -/
def Minds (r n : Nat) : BalancerCall → Prop
  | .filtering _ rest healthy => r ∈ rest ∨ r ∈ healthy
  | .counting rest least => r ∈ rest ∨ ∃ r' count, least = some (r', count) ∧ count ≤ n
  | .selected _ => False
  | _ => True

theorem Minds.mono {c : BalancerCall} {r : Nat} (h : c.Minds r n) (hn : n ≤ n') : c.Minds r n' := by
  cases c with
  | counting rest least =>
      rcases h with h | ⟨r', count, hleast, hle⟩
      · exact Or.inl h
      · exact Or.inr ⟨r', count, hleast, hle.trans hn⟩
  | _ => exact h

theorem reading_of_readAtMost {c : BalancerCall} {r m : Nat} (h : c.readAtMost r m = true) : c.reading = true := by
  cases c <;> first | rfl | cases h

theorem least_le (r count : Nat) (before : Option (Nat × Nat)) :
    (least r count before).2 ≤ count ∧ ∀ x ∈ before, (least r count before).2 ≤ x.2 := by
  cases before with
  | none => exact ⟨le_refl _, fun x hx => by cases hx⟩
  | some x =>
      unfold least
      dsimp only
      split
      · rename_i hlt
        refine ⟨le_refl _, ?_⟩
        rintro _ ⟨⟩
        exact hlt.le
      · rename_i hge
        refine ⟨Nat.not_lt.mp hge, ?_⟩
        rintro _ ⟨⟩
        exact le_refl _

theorem least_eq (r count : Nat) (before : Option (Nat × Nat)) :
    least r count before = (r, count) ∨ before = some (least r count before) := by
  cases before with
  | none => exact Or.inl rfl
  | some x =>
      unfold least
      dsimp only
      split
      · exact Or.inl rfl
      · exact Or.inr rfl

end BalancerCall

variable {s s' : SharedBalancer} {c c' : BalancerCall} {p p' : BalancerPool} {r r' : Nat}

theorem BalancerStep.minds (h : BalancerStep s c s' c') (hstrategy : s.balancer.config.strategy = .leastConnections)
    (hstays : s.balancer.InRotation r') (hc : c.Minds r' (s.balancer.connections r')) :
    c'.Minds r' (s.balancer.connections r') := by
  cases h with
  | locks => exact Or.inl hstays.1
  | @filters roll r rest healthy =>
      rcases hc with hc | hc
      · rcases List.mem_cons.mp hc with rfl | hc
        · rw [if_pos hstays.2]
          exact Or.inr (by simp)
        · exact Or.inl hc
      · refine Or.inr ?_
        split
        · exact List.mem_append_left _ hc
        · exact hc
  | counts _ =>
      rcases hc with hc | hc
      · cases hc
      · exact Or.inl hc
  | picks hother _ => exact absurd hstrategy hother
  | @reads r rest before =>
      obtain ⟨hread, hbefore⟩ := BalancerCall.least_le r (s.balancer.connections r) before
      rcases hc with hc | ⟨r₁, count, rfl, hle⟩
      · rcases List.mem_cons.mp hc with rfl | hc
        · exact Or.inr ⟨_, _, rfl, hread⟩
        · exact Or.inl hc
      · exact Or.inr ⟨_, _, rfl, (hbefore _ rfl).trans hle⟩
  | _ => trivial

/-- A counter that is above `m` is not read as one that is not. -/
theorem BalancerStep.readAtMost_le (h : BalancerStep s c s' c') {m : Nat} (hm : m < s.balancer.connections r)
    (hc' : c'.readAtMost r m = true) : c.readAtMost r m = true := by
  cases h with
  | @reads x rest before =>
      rcases BalancerCall.least_eq x (s.balancer.connections x) before with heq | heq
      · rw [heq] at hc'
        simp only [BalancerCall.readAtMost, Bool.and_eq_true, beq_iff_eq, decide_eq_true_eq] at hc'
        obtain ⟨rfl, hle⟩ := hc'
        omega
      · rw [heq]
        exact hc'
  | picks hother hselect =>
      unfold SharedBalancer.conclude SharedBalancer.release at hc'
      split at hc' <;> cases hc'
  | _ => cases hc'

/-! ## The counters after a step -/

/-- Only `select` raises a counter. -/
theorem liveGuards_le {s s' : LoadBalancer} {e : BalancerEvent} (he : isSelect e = false) (hs : s.step e = some s')
    (r : Nat) : s'.liveGuards r ≤ s.liveGuards r := by
  cases step_cases hs with
  | passed | selected => cases he
  | @dropped i g hg =>
      obtain ⟨hi, hget⟩ := List.getElem?_eq_some_iff.mp hg
      unfold liveGuards
      dsimp only
      rw [List.countP_set hi]
      simp only [Option.any_none, Bool.false_eq_true, if_false, Nat.add_zero]
      exact Nat.sub_le _ _
  | _ => exact le_refl _

theorem connections_guard {s : LoadBalancer} {b : BackendState} (hb : s.entries[r]? = some b) (x : Nat) :
    (s.guard (r, b)).2.connections x = if r = x then s.connections x + 1 else s.connections x := by
  simp only [connections, LoadBalancer.guard, List.getElem?_modify]
  split
  · rename_i heq
    subst heq
    rw [hb]
    rfl
  · rename_i hne
    cases s.entries[x]? <;> rfl

/-- A step raises no counter, or that of the entry that the call has chosen. -/
theorem BalancerStep.raises (h : BalancerStep s c s' c') : (∀ x, s'.balancer.liveGuards x ≤ s.balancer.liveGuards x) ∨
    ∃ r b, c.chosen = some r ∧ s.balancer.entries[r]? = some b ∧ c'.reading = false ∧
      s'.balancer = (s.balancer.guard (r, b)).2 := by
  cases h with
  | takes hc hb => exact Or.inr ⟨_, _, hc, hb, rfl, rfl⟩
  | calls he _ hs => exact Or.inl fun x => liveGuards_le he hs x
  | picks _ hselect =>
      refine Or.inl fun x => ?_
      rw [conclude_balancer]
      exact le_refl _
  | _ => exact Or.inl fun x => le_refl _

/-! ## The calls together -/

namespace BalancerPool

/-- The calls that are about to raise the counter of entry `r`, as it looks to them, and have read at most `m`. -/
def toRaise (p : BalancerPool) (r m : Nat) : Nat := p.total fun c => (c.readAtMost r m).toNat

theorem toRaise_le_readers (h : ReadersCounted p) (r m : Nat) : toRaise p r m ≤ p.shared.readers := by
  rw [h]
  refine List.sum_le_sum fun c _ => ?_
  cases hc : c.readAtMost r m with
  | false => exact Nat.zero_le _
  | true => rw [BalancerCall.reading_of_readAtMost hc]

theorem toRaise_set {i : Nat} (hi : p.tasks[i]? = some c) (r m : Nat) :
    toRaise ⟨s', p.tasks.set i c'⟩ r m + (c.readAtMost r m).toNat = toRaise p r m + (c'.readAtMost r m).toNat :=
  sum_map_set (fun c => (c.readAtMost r m).toNat) c' hi

end BalancerPool

open BalancerPool

/-- Entry `r'` is still before the calls or no higher than what they have read, and entry `r` is not far ahead. -/
structure Even (k n₀ r r' : Nat) (p : BalancerPool) : Prop where
  counted : ReadersCounted p
  exact : p.shared.balancer.cells.Exact
  strategy : p.shared.balancer.config.strategy = .leastConnections
  minds : ∀ c ∈ p.tasks, c.Minds r' (p.shared.balancer.connections r')
  spread : SpreadKept k n₀ (p.shared.balancer.connections r) (p.shared.balancer.connections r') (toRaise p r)

theorem Even.start (hcounted : ReadersCounted p) (hexact : p.shared.balancer.cells.Exact)
    (hstrategy : p.shared.balancer.config.strategy = .leastConnections) (hidle : p.shared.readers = 0) (k r r' : Nat) :
    Even k (p.shared.balancer.connections r) r r' p where
  counted := hcounted
  exact := hexact
  strategy := hstrategy
  minds c hc := by
    have hreading := hcounted.idle hidle hc
    cases c <;> trivial
  spread := .start fun m => Nat.le_zero.mp (hidle ▸ toRaise_le_readers hcounted r m)

/-- The spread after a step that raises the counter of entry `x`. -/
theorem Even.raised {k n₀ i x : Nat} {b : BackendState} (h : Even k n₀ r r' p) (hk : p.shared.readers ≤ k)
    (hi : p.tasks[i]? = some c) (hc : c.chosen = some x) (hb : p.shared.balancer.entries[x]? = some b)
    (hc' : c'.reading = false) :
    SpreadKept k n₀ ((p.shared.balancer.guard (x, b)).2.connections r)
      ((p.shared.balancer.guard (x, b)).2.connections r') (toRaise ⟨s', p.tasks.set i c'⟩ r) := by
  have hnone : ∀ m, (c'.readAtMost r m).toNat = 0 := by
    intro m
    cases hread : c'.readAtMost r m with
    | false => rfl
    | true =>
        rw [BalancerCall.reading_of_readAtMost hread] at hc'
        cases hc'
  have hset : ∀ m, toRaise ⟨s', p.tasks.set i c'⟩ r m + (c.readAtMost r m).toNat = toRaise p r m := by
    intro m
    rw [toRaise_set hi, hnone, Nat.add_zero]
  rw [connections_guard hb, connections_guard hb]
  have hminds := h.minds c (List.mem_of_getElem? hi)
  by_cases hx : x = r
  · subst hx
    rw [if_pos rfl]
    by_cases hr' : x = r'
    · subst hr'
      rw [if_pos rfl]
      exact fun m hm hlt => absurd hm (Nat.not_le.mpr hlt)
    · rw [if_neg hr']
      refine h.spread.raise (fun m => (toRaise_le_readers h.counted x m).trans hk) fun m hm => ?_
      -- the call has read no more of entry `x` than the counter of entry `r'`
      have hread : c.readAtMost x m = true := by
        cases c with
        | counting rest least =>
            cases rest with
            | cons y rest => cases hc
            | nil =>
                rcases hminds with hmem | ⟨y, count, rfl, hle⟩
                · cases hmem
                · cases hc
                  simp only [BalancerCall.readAtMost, beq_self_eq_true, Bool.true_and, decide_eq_true_eq]
                  exact hle.trans hm
        | selected g => exact hminds.elim
        | _ => cases hc
      have hone := hset m
      rwa [hread] at hone
  · rw [if_neg hx]
    refine h.spread.mono (le_refl _) ?_ fun m _ => ?_
    · split <;> omega
    · have hone := hset m
      omega

theorem Even.step {k n₀ : Nat} {e : Event BalancerEvent Unit} (h : Even k n₀ r r' p) (hk : p.shared.readers ≤ k)
    (hstays : p.shared.balancer.InRotation r')
    (hkeeps : p.shared.balancer.liveGuards r' ≤ p'.shared.balancer.liveGuards r')
    (hs : balancerCalls.step p e = some p') : Even k n₀ r r' p' := by
  have hcounted := h.counted.step hs
  have hexact := exact_calls h.exact hs
  cases e with
  | spawn kind =>
      rw [Program.step_spawn] at hs
      cases hs
      refine ⟨hcounted, hexact, h.strategy, ?_, h.spread.mono (le_refl _) (le_refl _) fun m _ => ?_⟩
      · intro c hc
        rcases List.mem_append.mp hc with hc | hc
        · exact h.minds c hc
        · rw [List.mem_singleton.mp hc]
          cases kind <;> trivial
      · have hstart : (balancerCalls.start kind).readAtMost r m = false := by cases kind <;> rfl
        simp only [toRaise, Pool.total, List.map_append, List.map_singleton, List.sum_append, List.sum_singleton, hstart]
        exact le_refl _
  | act i u =>
      obtain ⟨c, s', c', hi, hact, rfl⟩ := Program.step_act.mp hs
      have hstep := balancerStep_cases hact
      rw [← connections_eq h.exact, ← connections_eq hexact] at hkeeps
      refine ⟨hcounted, hexact, by rw [hstep.config, h.strategy], ?_, ?_⟩
      · intro d hd
        rcases List.mem_or_eq_of_mem_set hd with hd | rfl
        · exact (h.minds d hd).mono hkeeps
        · exact (hstep.minds h.strategy hstays (h.minds c (List.mem_of_getElem? hi))).mono hkeeps
      · rcases hstep.raises with hle | ⟨x, b, hc, hb, hc', heq⟩
        · have hr := hle r
          rw [← connections_eq h.exact, ← connections_eq hexact] at hr
          refine h.spread.mono hr hkeeps fun m hm => ?_
          have hset : toRaise ⟨s', p.tasks.set i c'⟩ r m + (c.readAtMost r m).toNat = _ := toRaise_set hi r m
          cases hread : c'.readAtMost r m with
          | false =>
              rw [hread] at hset
              dsimp only [Bool.toNat_false] at hset
              omega
          | true =>
              rw [hread, hstep.readAtMost_le (Nat.lt_of_lt_of_le hm hr) hread] at hset
              exact (Nat.add_right_cancel hset).le
        · dsimp only
          rw [heq]
          exact h.raised hk hi hc hb hc'

end NetworkSystem
