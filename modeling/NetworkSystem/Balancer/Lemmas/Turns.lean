import NetworkSystem.Balancer.Lemmas.Fairness
import NetworkSystem.Balancer.Lemmas.SelectCalls

/-!
# Calls that take turns

A call under a rotating strategy comes to its turn when it reads and moves the index. As long as the candidates stay
the same, it picks then what a selection that is not interrupted picks in the same state, so the calls pick what as
many selections pick one after another.
-/

namespace NetworkSystem

open TaskPool Steps LoadBalancer

namespace LoadBalancer

variable {s s' : LoadBalancer} {e : BalancerEvent} {r : Nat}

/-! ## The candidates -/

theorem listedAt_filter (s : LoadBalancer) (positions : List Nat) :
    s.listedAt (positions.filter s.isHealthy) = (s.listedAt positions).filter (·.2.healthy) := by
  induction positions with
  | nil => rfl
  | cons r positions ih =>
      unfold listedAt at ih ⊢
      cases hb : s.entries[r]? with
      | none =>
          have hflag : s.isHealthy r = false := by rw [isHealthy, hb, Option.any_none]
          rw [List.filter_cons_of_neg (by rw [hflag]; exact Bool.false_ne_true), List.filterMap_cons, hb]
          exact ih
      | some b =>
          have hflag : s.isHealthy r = b.healthy := by rw [isHealthy, hb, Option.any_some]
          rw [List.filterMap_cons, hb, Option.map_some, List.filter_cons, List.filter_cons, hflag]
          dsimp only
          cases b.healthy with
          | false => exact ih
          | true =>
              rw [if_pos rfl, if_pos rfl, List.filterMap_cons, hb, Option.map_some]
              exact congrArg _ ih

/-- The candidates are those of the entries in the list that are not passed over. -/
theorem candidates_eq (s : LoadBalancer) :
    s.candidates = (s.backends.filter s.isHealthy).filterMap fun r => s.entries[r]?.map fun b => ⟨b.backend, r⟩ := by
  have hhealthy : s.healthyBackends = s.listedAt (s.backends.filter s.isHealthy) := (listedAt_filter s _).symm
  rw [candidates, hhealthy, listedAt, List.map_filterMap]
  congr 1
  funext r
  cases s.entries[r]? <;> rfl

theorem candidates_guard (s : LoadBalancer) (b : Listed) : (s.guard b).2.candidates = s.candidates := by
  obtain ⟨r, b⟩ := b
  rw [candidates_eq, candidates_eq]
  have hentry : ∀ x, (s.guard (r, b)).2.entries[x]? = (s.entries[x]?).map fun a =>
      if r = x then a.addConnection else a := by
    intro x
    simp only [LoadBalancer.guard, List.getElem?_modify]
    cases s.entries[x]? with
    | none => rfl
    | some a =>
        simp only [Option.map_some]
        split <;> rfl
  have hflag : ∀ x, (s.guard (r, b)).2.isHealthy x = s.isHealthy x := by
    intro x
    rw [isHealthy, isHealthy, hentry]
    cases s.entries[x]? with
    | none => rfl
    | some a =>
        simp only [Option.map_some, Option.any_some]
        split <;> rfl
  have hsame : (s.guard (r, b)).2.isHealthy = s.isHealthy := funext hflag
  rw [hsame]
  congr 1
  funext x
  rw [hentry, Option.map_map]
  cases s.entries[x]? with
  | none => rfl
  | some a =>
      simp only [Option.map_some, Function.comp]
      split <;> rfl

theorem candidates_select (s : LoadBalancer) (roll : Nat) : (s.select roll).2.candidates = s.candidates := by
  have hends := select_ends s roll
  generalize s.select roll = x at hends
  cases hends with
  | without result index => rfl
  | @selected index b hb => exact candidates_guard (s.atIndex index) b

theorem isHealthy_iff_candidate (hr : r ∈ s.backends) : s.isHealthy r = decide (r ∈ s.candidates.map (·.state)) := by
  have hiff : s.isHealthy r = true ↔ r ∈ s.candidates.map (·.state) := by
    rw [isHealthy_iff, List.mem_map]
    constructor
    · rintro ⟨b, hb, hhealthy⟩
      exact ⟨⟨b.backend, r⟩, mem_candidates.mpr ⟨hr, b, hb, hhealthy, rfl⟩, rfl⟩
    · rintro ⟨g, hg, rfl⟩
      obtain ⟨-, b, hb, hhealthy, -⟩ := mem_candidates.mp hg
      exact ⟨b, hb, hhealthy⟩
  rw [Bool.eq_iff_iff, hiff, decide_eq_true_eq]

theorem Step.backends (h : Step s e s') (he : e.writesList = false) : s'.backends = s.backends := by
  cases h with
  | added | removed => cases he
  | _ => rfl

/-! ## Selections one after another -/

/-- So many selections pick so many times, and leave the candidates as they are. -/
theorem picks_replicate (s : LoadBalancer) (n : Nat) : ∃ s',
    run step s (List.replicate n (.select 0)) = some s' ∧
      (s.picks (List.replicate n (.select 0))).length = n ∧
      Always step (·.candidates = s.candidates) s (List.replicate n (.select 0)) := by
  induction n generalizing s with
  | zero => exact ⟨s, rfl, rfl, always_nil.mpr rfl⟩
  | succ n ih =>
      obtain ⟨s', hr, hlength, hfixed⟩ := ih (s.select 0).2
      refine ⟨s', hr, ?_, always_cons.mpr ⟨rfl, fun s₁ hs => ?_⟩⟩
      · exact congrArg Nat.succ hlength
      · cases hs
        rw [candidates_select] at hfixed
        exact hfixed

end LoadBalancer

variable {s s' : SharedBalancer} {c c' : BalancerCall} {p p' : BalancerPool} {l : List BackendGuard}
  {es : List (Event BalancerEvent Unit)}

/-! ## Calls that read the flags -/

/-- The call has passed over the entries before `rest` that are not candidates. -/
def BalancerCall.Scans (l : List BackendGuard) (backends : List Nat) : BalancerCall → Prop
  | .filtering _ rest healthy => ∃ scanned, backends = scanned ++ rest ∧
      healthy = scanned.filter fun r => decide (r ∈ l.map (·.state))
  | _ => True

theorem BalancerStep.scans (h : BalancerStep s c s' c') (hl : s.balancer.candidates = l)
    (hc : c.Scans l s.balancer.backends) : c'.Scans l s.balancer.backends := by
  cases h with
  | locks => exact ⟨[], rfl, rfl⟩
  | @filters roll r rest healthy =>
      obtain ⟨scanned, hbackends, rfl⟩ := hc
      have hr : r ∈ s.balancer.backends := by
        rw [hbackends]
        exact List.mem_append_right _ List.mem_cons_self
      refine ⟨scanned ++ [r], by rw [hbackends, List.append_assoc]; rfl, ?_⟩
      rw [isHealthy_iff_candidate hr, hl, List.filter_append, List.filter_cons, List.filter_nil]
      split
      · rfl
      · exact (List.append_nil _).symm
  | picks _ hselect =>
      unfold SharedBalancer.conclude SharedBalancer.release
      split <;> trivial
  | _ => trivial

/-- While a call reads the flags the list stays as it is. -/
theorem BalancerStep.keepsList (h : BalancerStep s c s' c') (hreaders : s.readers ≠ 0) :
    s'.balancer.backends = s.balancer.backends := by
  cases h with
  | picks _ hselect =>
      rw [conclude_balancer]
      rfl
  | calls he hfree hs => exact (step_cases hs).backends (Bool.eq_false_of_not_eq_true fun h => hreaders (hfree h))
  | _ => rfl

theorem BalancerCall.Scans.of_idle {backends : List Nat} (hc : c.reading = false) : c.Scans l backends := by
  cases c with
  | filtering => cases hc
  | _ => trivial

theorem scans_step {e : Event BalancerEvent Unit} (hcounted : ReadersCounted p)
    (hl : p.shared.balancer.candidates = l) (h : ∀ c ∈ p.tasks, c.Scans l p.shared.balancer.backends)
    (hs : balancerCalls.step p e = some p') : ∀ c ∈ p'.tasks, c.Scans l p'.shared.balancer.backends := by
  cases e with
  | spawn kind =>
      rw [Program.step_spawn] at hs
      cases hs
      intro c hc
      rcases List.mem_append.mp hc with hc | hc
      · exact h c hc
      · rw [List.mem_singleton.mp hc]
        exact .of_idle (start_reading kind)
  | act i u =>
      obtain ⟨c, s', c', hi, hact, rfl⟩ := Program.step_act.mp hs
      have hstep := balancerStep_cases hact
      have hkept : ∀ d ∈ p.tasks, d.reading = true → s'.balancer.backends = p.shared.balancer.backends := by
        intro d hd hreading
        refine hstep.keepsList fun hidle => ?_
        rw [hcounted.idle hidle hd] at hreading
        cases hreading
      intro d hd
      cases hreading : d.reading with
      | false => exact .of_idle hreading
      | true =>
          rcases List.mem_or_eq_of_mem_set hd with hd | rfl
          · rw [hkept d hd hreading]
            exact h d hd
          · have hown := hstep.scans hl (h c (List.mem_of_getElem? hi))
            have hbackends : s'.balancer.backends = p.shared.balancer.backends := by
              cases hstep with
              | locks => rfl
              | filters => rfl
              | counts => rfl
              | reads => rfl
              | picks => exact hkept _ (List.mem_of_getElem? hi) rfl
              | _ => cases hreading
            rw [hbackends]
            exact hown

/-! ## Turns -/

/-- A call that has read all flags picks what `select` picks in the same state. -/
theorem conclude_picks {roll r : Nat} {healthy : List Nat} (hl : s.balancer.candidates = l)
    (hc : (BalancerCall.filtering roll [] (r :: healthy)).Scans l s.balancer.backends) :
    (s.balancer.select roll).1 = (s.balancer.selectBy roll (s.balancer.listedAt (r :: healthy))).1.map
        (Option.map guardOf) ∧
      (s.balancer.select roll).2.roundRobinIndex =
        (s.balancer.selectBy roll (s.balancer.listedAt (r :: healthy))).2.roundRobinIndex := by
  obtain ⟨scanned, hbackends, hhealthy⟩ := hc
  rw [List.append_nil] at hbackends
  subst hbackends
  have hflags : r :: healthy = s.balancer.backends.filter s.balancer.isHealthy := by
    rw [hhealthy]
    refine List.filter_congr fun x hx => ?_
    rw [isHealthy_iff_candidate hx, hl]
  have hlisted : s.balancer.listedAt (r :: healthy) = s.balancer.healthyBackends := by
    rw [hflags]
    exact listedAt_filter _ _
  have hr : r ∈ s.balancer.backends ∧ s.balancer.isHealthy r = true :=
    List.mem_filter.mp (hflags ▸ List.mem_cons_self)
  rw [hlisted]
  exact select_of_candidates roll (candidates_ne_nil.mpr ⟨r, hr⟩)

theorem picked_eq_none {i : Nat} (hi : p.tasks[i]? = some c)
    (hc : ∀ roll r healthy, c ≠ .filtering roll [] (r :: healthy)) : BalancerPool.picked p (.act i ()) = none := by
  unfold BalancerPool.picked
  dsimp only
  rw [hi]
  split
  · rename_i roll r healthy heq
    exact absurd (Option.some.inj heq) (hc roll r healthy)
  · rfl

theorem picked_eq_some {i roll r : Nat} {healthy : List Nat} {result : Except Panic (Option Listed)}
    {balancer : LoadBalancer} (hi : p.tasks[i]? = some (.filtering roll [] (r :: healthy)))
    (hstrategy : p.shared.balancer.config.strategy ≠ .leastConnections)
    (hselect : p.shared.balancer.selectBy roll (p.shared.balancer.listedAt (r :: healthy)) = (result, balancer)) :
    BalancerPool.picked p (.act i ()) = some (result.map (Option.map guardOf)) := by
  unfold BalancerPool.picked
  dsimp only
  rw [hi]
  dsimp only
  rw [if_neg hstrategy, hselect]
  rfl

/-- The calls under a rotating strategy, from the visit `k` on. -/
structure Turns (l : List BackendGuard) (strategy : Strategy) (index : UInt64 → Nat) (size k : Nat)
    (p : BalancerPool) : Prop where
  strategy : p.shared.balancer.config.strategy = strategy
  index : index p.shared.balancer.roundRobinIndex = k % size
  counted : ReadersCounted p
  scans : ∀ c ∈ p.tasks, c.Scans l p.shared.balancer.backends

variable {strategy : Strategy} {w : BackendGuard → Nat} {index : UInt64 → Nat} {size k : Nat}

theorem Turns.step {e : Event BalancerEvent Unit} (hrotates : Rotates l strategy w index size)
    (hother : strategy ≠ .leastConnections) (h : Turns l strategy index size k p)
    (hl : p.shared.balancer.candidates = l) (hs : balancerCalls.step p e = some p') :
    (BalancerPool.picked p e = none ∧ Turns l strategy index size k p') ∨
      (BalancerPool.picked p e = some (.ok (Rotation.pick w (k % size % Rotation.total w l) l)) ∧
        Turns l strategy index size (k + 1) p') := by
  have hcounted := h.counted.step hs
  have hscans := scans_step h.counted hl h.scans hs
  cases e with
  | spawn kind =>
      rw [Program.step_spawn] at hs
      cases hs
      exact Or.inl ⟨rfl, h.strategy, h.index, hcounted, hscans⟩
  | act i u =>
      obtain ⟨c, s', c', hi, hact, rfl⟩ := Program.step_act.mp hs
      cases balancerStep_cases hact with
      | counts hleast => exact absurd (h.strategy.symm.trans hleast) hother
      | @picks roll r healthy result next hstrategy hselect =>
          obtain ⟨hresult, hindex⟩ := conclude_picks hl (h.scans _ (List.mem_of_getElem? hi))
          obtain ⟨hpick, hnext⟩ := hrotates.select p.shared.balancer roll h.strategy hl
          rw [hindex, hselect] at hnext
          refine Or.inr ⟨?_, ?_, ?_, hcounted, hscans⟩
          · rw [picked_eq_some hi hstrategy hselect, ← h.index, ← hpick, hresult, hselect]
          · rw [conclude_balancer]
            exact h.strategy
          · have hmoved : index next = (k + 1) % size := by
              rw [show next = p.shared.balancer.roundRobinIndex + 1 from hnext, hrotates.index_succ, h.index,
                Nat.mod_add_mod]
            rw [conclude_balancer]
            exact hmoved
      | takes hc hb =>
          refine Or.inl ⟨picked_eq_none hi fun _ _ _ heq => ?_, h.strategy, h.index, hcounted, hscans⟩
          rw [heq] at hc
          cases hc
      | leaves hreading hnone _ =>
          exact Or.inl ⟨picked_eq_none hi hnone, h.strategy, h.index, hcounted, hscans⟩
      | calls he hfree hstep =>
          refine Or.inl ⟨picked_eq_none hi fun _ _ _ heq => (by cases heq), ?_, ?_, hcounted, hscans⟩
          · exact (congrArg _ (step_cases hstep).config).trans h.strategy
          · exact (congrArg _ ((step_cases hstep).index he)).trans h.index
      | _ =>
          exact Or.inl ⟨picked_eq_none hi fun _ _ _ heq => (by cases heq), h.strategy, h.index, hcounted, hscans⟩

/-- The calls pick what as many selections pick one after another. -/
theorem picks_eq (hrotates : Rotates l strategy w index size) (hother : strategy ≠ .leastConnections)
    (hstrategy : p.shared.balancer.config.strategy = strategy) (hcounted : ReadersCounted p)
    (hidle : p.shared.readers = 0)
    (hfixed : Always balancerCalls.step (fun q => q.shared.balancer.candidates = l) p es)
    (hr : run balancerCalls.step p es = some p') :
    BalancerPool.picks p es =
      p.shared.balancer.picks (List.replicate (BalancerPool.picks p es).length (.select 0)) := by
  have hl : p.shared.balancer.candidates = l := hfixed [] p List.nil_prefix rfl
  have hstart : Turns l strategy index size (index p.shared.balancer.roundRobinIndex) p := by
    exact ⟨hstrategy, (Nat.mod_eq_of_lt (hrotates.index_lt _)).symm, hcounted,
      fun c hc => .of_idle (hcounted.idle hidle hc)⟩
  have hturns := outputs_eq (I := fun k q => Turns l strategy index size k q)
    (fun k q e q' h hC hs => h.step hrotates hother hC hs) hstart hfixed.along hr
  obtain ⟨s', hr', hlength, hkept⟩ := picks_replicate p.shared.balancer (BalancerPool.picks p es).length
  rw [hl] at hkept
  have hselections := hrotates.picks hstrategy hkept hr'
  rw [hlength] at hselections
  exact hturns.trans hselections.symm

/-! ## What a call has picked it returns -/

namespace LoadBalancer

variable {s s' : LoadBalancer} {e : BalancerEvent} {r : Nat} {b : BackendState}

theorem backend_modify {f : BackendState → BackendState} {entries : List BackendState} {i : Nat}
    (hf : ∀ b, (f b).backend = b.backend) (hb : entries[r]? = some b) :
    ∃ b', (entries.modify i f)[r]? = some b' ∧ b'.backend = b.backend := by
  rw [List.getElem?_modify, hb]
  refine ⟨_, rfl, ?_⟩
  split
  · exact hf b
  · rfl

/-- An entry keeps its backend. -/
theorem Step.backend_kept (h : Step s e s') (hb : s.entries[r]? = some b) :
    ∃ b', s'.entries[r]? = some b' ∧ b'.backend = b.backend := by
  cases h with
  | passed | removed | setNone => exact ⟨b, hb, rfl⟩
  | selected => exact backend_modify (fun _ => rfl) hb
  | dropped => exact backend_modify (fun _ => rfl) hb
  | recorded =>
      refine backend_modify (fun a => ?_) hb
      unfold BackendState.recordRequest
      split <;> rfl
  | added => exact ⟨b, by rw [addBackend, List.getElem?_append_left (List.getElem?_eq_some_iff.mp hb).1, hb], rfl⟩
  | set =>
      refine backend_modify (fun a => ?_) hb
      split <;> rfl
  | checked =>
      refine backend_modify (fun a => ?_) hb
      unfold BackendState.checked
      split
      · rfl
      · split <;> rfl

theorem mem_listedAt {positions : List Nat} {b : Listed} (hb : b ∈ s.listedAt positions) :
    s.entries[b.1]? = some b.2 := by
  obtain ⟨r, -, heq⟩ := List.mem_filterMap.mp hb
  obtain ⟨a, ha, rfl⟩ := Option.map_eq_some_iff.mp heq
  exact ha

end LoadBalancer

namespace BalancerCall

/-- The guard that the call is about to return has the backend of its entry. -/
def Named (s : LoadBalancer) : BalancerCall → Prop
  | .selected g => ∃ b, s.entries[g.state]? = some b ∧ b.backend = g.backend
  | .counting _ _ => False
  | _ => True

/-- The call has picked the guard. -/
def hasPicked (g : BackendGuard) : BalancerCall → Bool
  | .selected g' | .returned (some g') => decide (g' = g)
  | _ => false

end BalancerCall

theorem BalancerStep.backend_kept {r : Nat} {b : BackendState} (h : BalancerStep s c s' c')
    (hb : s.balancer.entries[r]? = some b) : ∃ b', s'.balancer.entries[r]? = some b' ∧ b'.backend = b.backend := by
  cases h with
  | picks _ hselect =>
      rw [conclude_balancer]
      exact ⟨b, hb, rfl⟩
  | takes hc hentry => exact backend_modify (fun _ => rfl) hb
  | calls he hfree hs => exact (step_cases hs).backend_kept hb
  | _ => exact ⟨b, hb, rfl⟩

theorem BalancerStep.named (h : BalancerStep s c s' c') (hother : s.balancer.config.strategy ≠ .leastConnections)
    (hc : c.Named s.balancer) : c'.Named s'.balancer := by
  cases h with
  | counts hleast => exact absurd hleast hother
  | @picks roll r healthy result index hstrategy hselect =>
      have hmem : ∀ b, result = .ok (some b) → s.balancer.entries[b.1]? = some b.2 := fun b hb =>
        mem_listedAt (selectBy_mem ((congrArg Prod.fst hselect).trans hb))
      unfold SharedBalancer.conclude SharedBalancer.release
      split
      · trivial
      · trivial
      · exact ⟨_, hmem _ rfl, rfl⟩
  | reads => exact hc.elim
  | _ => trivial

theorem BalancerCall.Named.mono {s s' : LoadBalancer} (hkept : ∀ (r : Nat) b, s.entries[r]? = some b →
    ∃ b', s'.entries[r]? = some b' ∧ b'.backend = b.backend) (hc : c.Named s) : c.Named s' := by
  cases c with
  | selected g =>
      obtain ⟨b, hb, hbackend⟩ := hc
      obtain ⟨b', hb', hsame⟩ := hkept _ b hb
      exact ⟨b', hb', hsame.trans hbackend⟩
  | _ => exact hc

/-- The calls under a strategy other than `Strategy::LeastConnections`. -/
structure AllNamed (p : BalancerPool) : Prop where
  other : p.shared.balancer.config.strategy ≠ .leastConnections
  named : ∀ c ∈ p.tasks, c.Named p.shared.balancer

theorem AllNamed.step {e : Event BalancerEvent Unit} (h : AllNamed p) (hs : balancerCalls.step p e = some p') :
    AllNamed p' := by
  cases e with
  | spawn kind =>
      rw [Program.step_spawn] at hs
      cases hs
      refine ⟨h.other, fun c hc => ?_⟩
      rcases List.mem_append.mp hc with hc | hc
      · exact h.named c hc
      · rw [List.mem_singleton.mp hc]
        cases kind <;> trivial
  | act i u =>
      obtain ⟨c, s', c', hi, hact, rfl⟩ := Program.step_act.mp hs
      have hstep := balancerStep_cases hact
      refine ⟨by rw [hstep.config]; exact h.other, fun d hd => ?_⟩
      rcases List.mem_or_eq_of_mem_set hd with hd | rfl
      · exact (h.named d hd).mono fun r b hb => hstep.backend_kept hb
      · exact hstep.named h.other (h.named c (List.mem_of_getElem? hi))

theorem conclude_hasPicked (s : SharedBalancer) (result : Except Panic (Option Listed)) (g : BackendGuard) :
    ((s.conclude result).2.hasPicked g).toNat = [result.map (Option.map guardOf)].count (.ok (some g)) := by
  rcases result with q | _ | b
  · rfl
  · rfl
  · simp only [SharedBalancer.conclude, BalancerCall.hasPicked, Except.map, Option.map_some, List.count_singleton,
      guardOf]
    by_cases heq : (⟨b.2.backend, b.1⟩ : BackendGuard) = g <;> simp [heq]

theorem hasPicked_step {e : Event BalancerEvent Unit} (g : BackendGuard) (h : AllNamed p)
    (hs : balancerCalls.step p e = some p') :
    p'.tasks.countP (BalancerCall.hasPicked g) =
      p.tasks.countP (BalancerCall.hasPicked g) + (BalancerPool.picked p e).toList.count (.ok (some g)) := by
  rw [← Pool.total_eq_countP, ← Pool.total_eq_countP]
  cases e with
  | spawn kind =>
      rw [Program.step_spawn] at hs
      cases hs
      have hstart : (balancerCalls.start kind).hasPicked g = false := by cases kind <;> rfl
      simp only [Pool.total, List.map_append, List.map_singleton, List.sum_append, List.sum_singleton, hstart]
      rfl
  | act i u =>
      obtain ⟨c, s', c', hi, hact, rfl⟩ := Program.step_act.mp hs
      have hset : Pool.total (fun c => (c.hasPicked g).toNat) ⟨s', p.tasks.set i c'⟩ + (c.hasPicked g).toNat =
          p.total (fun c => (c.hasPicked g).toNat) + (c'.hasPicked g).toNat :=
        sum_map_set (fun c : BalancerCall => (c.hasPicked g).toNat) c' hi
      have hnone : ∀ (hc : ∀ roll r healthy, c ≠ .filtering roll [] (r :: healthy)),
          (c'.hasPicked g).toNat = (c.hasPicked g).toNat →
            Pool.total (fun c => (c.hasPicked g).toNat) ⟨s', p.tasks.set i c'⟩ =
              p.total (fun c => (c.hasPicked g).toNat) +
                (BalancerPool.picked p (.act i u)).toList.count (.ok (some g)) := by
        intro hc heq
        rw [picked_eq_none hi hc]
        rw [heq] at hset
        exact Nat.add_right_cancel hset
      have hnamed := h.named c (List.mem_of_getElem? hi)
      cases balancerStep_cases hact with
      | counts hleast => exact absurd hleast h.other
      | @picks roll r healthy result index hstrategy hselect =>
          rw [conclude_hasPicked] at hset
          rw [picked_eq_some hi hstrategy hselect]
          exact (Nat.add_zero _).symm.trans hset
      | @takes _ r b hc hb =>
          cases c with
          | counting => exact hnamed.elim
          | selected g' =>
              obtain ⟨b', hb', hbackend⟩ := hnamed
              cases hc
              rw [hb, Option.some.injEq] at hb'
              subst hb'
              refine hnone (fun _ _ _ heq => by cases heq) ?_
              have hsame : (⟨b.backend, g'.state⟩ : BackendGuard) = g' := by rw [hbackend]
              simp only [BalancerCall.hasPicked, hsame]
          | _ => cases hc
      | leaves hreading hc hmissing =>
          refine hnone hc ?_
          cases c with
          | selected g' =>
              obtain ⟨b, hb, -⟩ := hnamed
              rw [hmissing _ rfl] at hb
              cases hb
          | counting => rfl
          | filtering => rfl
          | _ => cases hreading
      | _ => exact hnone (fun _ _ _ heq => by cases heq) rfl

/-- When no call reads the list, those that have picked a guard have returned it. -/
theorem hasPicked_idle (hcounted : ReadersCounted p) (hidle : p.shared.readers = 0) (g : BackendGuard) :
    p.tasks.countP (BalancerCall.hasPicked g) = p.tasks.count (.returned (some g)) := by
  refine List.countP_congr fun c hc => ?_
  have hreading := hcounted.idle hidle hc
  cases c with
  | selected => cases hreading
  | returned result =>
      cases result with
      | none => exact iff_of_false Bool.false_ne_true (by simp)
      | some g' => simp [BalancerCall.hasPicked]
  | _ => exact iff_of_false Bool.false_ne_true (by simp)

theorem listsOnce_calls {e : Event BalancerEvent Unit} (h : p.shared.balancer.ListsOnce)
    (hs : balancerCalls.step p e = some p') : p'.shared.balancer.ListsOnce := by
  refine balancerCalls.shared_invariant (I := fun s => s.balancer.ListsOnce) (fun s c _ s' c' ha hlists => ?_) hs h
  cases balancerStep_cases ha with
  | picks _ hselect =>
      rw [conclude_balancer]
      exact ⟨hlists.nodup, hlists.bound⟩
  | takes hc hb =>
      refine ⟨hlists.nodup, fun r hr => ?_⟩
      simp only [LoadBalancer.guard, List.length_modify]
      exact hlists.bound r hr
  | calls he hfree hstep => exact hlists.step hstep
  | _ => exact hlists

end NetworkSystem
