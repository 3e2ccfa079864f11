import NetworkSystem.Balancer.Lemmas.Fairness
import NetworkSystem.Balancer.Lemmas.Guards
import NetworkSystem.Balancer.Lemmas.Health
import NetworkSystem.Balancer.Lemmas.OutOfRotation
import NetworkSystem.Balancer.Lemmas.Spread
import NetworkSystem.Balancer.Lemmas.Turns

/-!
# Health, load and selection of the backends

When the health checks follow their thresholds, what the connection counters say about the guards, and which
backends a run selects.
-/

namespace NetworkSystem

open Steps TaskPool LoadBalancer

/-! ## Health checks -/

/-- In every run without `set_backend_health` the health of a backend follows the thresholds of its checks, if
and only if every check meets the counter of failed requests as `ChecksMeetCounter` says. -/
theorem health_checks_follow_iff (strategy : Strategy) (config : HealthCheckConfig)
    (hu : 0 < config.unhealthyThreshold) (hh : 0 < config.healthyThreshold) (overflowChecks : Bool) (now : Nat)
    (backends : List Backend) (r : Nat) (es : List BalancerEvent) (hes : ∀ e ∈ es, setsHealth e = false) :
    Along (traced LoadBalancer.step) (FollowsThresholds config r)
        ([], .new ⟨strategy, some config⟩ overflowChecks now backends) es ↔
      Along (traced LoadBalancer.step) (ChecksMeetCounter config r)
        ([], .new ⟨strategy, some config⟩ overflowChecks now backends) es := by
  refine along_congr_under (D := fun _ e => setsHealth e = false) ?_ ?_
    (ChecksTold.new hu r strategy overflowChecks now backends) (along_of_forall hes)
  · exact fun t e t' h hset hmeets hs => h.step hu hset hmeets hs
  · exact fun t e h hset => ⟨h.meets hh, h.follows hu hset⟩

/-- The default thresholds. -/
def threeAndTwo : HealthCheckConfig := ⟨3, 2⟩

def oneBackend : LoadBalancer := .new ⟨.roundRobin, some threeAndTwo⟩ true 0 [⟨"server1:8080", 1⟩]

/-- The requests of a guard fail three times, and the checks fail after that. -/
def failingRequests : List BalancerEvent :=
  [.check 1 0 true, .select 0, .record 0 false, .record 0 false, .record 0 false, .check 2 0 false,
    .check 3 0 false, .check 4 0 false]

theorem health_checks_follow_failing_requests :
    Along (traced LoadBalancer.step) (FollowsThresholds threeAndTwo 0) ([], oneBackend) failingRequests :=
  (health_checks_follow_iff .roundRobin threeAndTwo (by decide) (by decide) true 0 [⟨"server1:8080", 1⟩] 0
    failingRequests (by decide)).mpr (by decide)

/-- Three checks in a row fail and the backend stays healthy. -/
def failingChecks : List BalancerEvent := [.check 1 0 false, .check 2 0 false, .check 3 0 false]

/-- After the failing requests and checks one check succeeds. -/
def oneSuccess : List BalancerEvent := failingRequests ++ [.check 5 0 true]

theorem health_checks_ignore_thresholds :
    (∃ s, run LoadBalancer.step oneBackend failingChecks = some s ∧
      LastChecks 3 false (checks 0 failingChecks.reverse) ∧ s.isHealthy 0 = true) ∧
    (∃ s s', run LoadBalancer.step oneBackend failingRequests = some s ∧
      run LoadBalancer.step oneBackend oneSuccess = some s' ∧ s.isHealthy 0 = false ∧ s'.isHealthy 0 = true ∧
      ¬ LastChecks 2 true (checks 0 oneSuccess.reverse)) ∧
    ¬ Along (traced LoadBalancer.step) (FollowsThresholds threeAndTwo 0) ([], oneBackend) failingChecks ∧
    ¬ Along (traced LoadBalancer.step) (FollowsThresholds threeAndTwo 0) ([], oneBackend) oneSuccess := by
  refine ⟨⟨_, rfl, by decide, by decide⟩, ⟨_, _, rfl, rfl, by decide, by decide, by decide⟩, ?_, ?_⟩
  · intro h
    have hlast := h (failingChecks.take 2) (.check 3 0 false) [] _ rfl rfl _ rfl _ rfl
    cases hlast.1 (by decide)
  · intro h
    have hlast := h failingRequests (.check 5 0 true) [] _ rfl rfl _ rfl _ rfl
    exact absurd (hlast.2 _ rfl rfl rfl) (by decide)

/-! ## Live guards -/

/-- In every state of every run the connection counter of an entry is the number of its live guards, also after
its backend was removed, and no drop takes it below zero. Under `Strategy::LeastConnections` a selection
returns nothing exactly when no backend is healthy, and otherwise a healthy one with the fewest live guards. -/
theorem active_connections_count_guards (config : LoadBalancerConfig) (overflowChecks : Bool) (now : Nat)
    (backends : List Backend) (es : List BalancerEvent) :
    Always LoadBalancer.step CountsGuards (.new config overflowChecks now backends) es := by
  refine always_of_preserves (C := fun _ _ => True) (I := fun s => s.cells.Exact) ?_ ?_
    (exact_new config overflowChecks now backends) (along_of_forall fun _ _ => trivial)
  · exact fun s e s' h _ hs => exact_step h hs
  · exact fun s h => countsGuards_of_exact h

/-- The guard outlives the removal of its backend; the address that is added again counts its guards anew. -/
example :
    let s := LoadBalancer.new ⟨.leastConnections, none⟩ true 0 [⟨"server1:8080", 1⟩]
    (run LoadBalancer.step s [.select 0, .removeBackend "server1:8080", .addBackend 1 ⟨"server1:8080", 1⟩,
      .select 0, .drop 0]).map (fun s => (s.liveGuards 0, s.liveGuards 1)) = some (0, 1) := by
  decide

/-! ## The rotating strategies -/

/-- While the candidates stay the same, any window of selections under `Strategy::RoundRobin` picks each of them
as often as any other, up to one, and any window of as many selections under `Strategy::WeightedRoundRobin` as
the weights come to picks each as often as its weight says, with every walk ending inside the list. The windows
end before the index wraps, which as a `u32` it does earlier. -/
theorem selections_rotate_fairly (config : LoadBalancerConfig) (overflowChecks : Bool) (now : Nat)
    (backends : List Backend) {before : List BalancerEvent} {s : LoadBalancer}
    (hreach : run LoadBalancer.step (.new config overflowChecks now backends) before = some s) (index : UInt64)
    {l : List BackendGuard} {es : List BalancerEvent} {s' : LoadBalancer}
    (hr : run LoadBalancer.step (s.atIndex index) es = some s')
    (hfixed : Always LoadBalancer.step (·.candidates = l) (s.atIndex index) es) :
    (config.strategy = .roundRobin →
      index.toNat + ((s.atIndex index).picks es).length ≤ UInt64.size → InTurn l ((s.atIndex index).picks es)) ∧
    (config.strategy = .weightedRoundRobin → 0 < totalWeight l → totalWeight l < UInt32.size →
      ((s.atIndex index).picks es).length = totalWeight l →
      index.toUInt32.toNat + totalWeight l ≤ UInt32.size →
        ByWeight l ((s.atIndex index).picks es) ∧ Along LoadBalancer.step WalksInside (s.atIndex index) es) := by
  have hlists : s.ListsOnce := run_invariant (fun s e s' h hs => h.step hs) (.new config overflowChecks now backends)
    hreach
  have hconfig : s.config = config :=
    run_invariant (I := fun s => s.config = config) (fun s e s' h hs => (step_cases hs).config.trans h) rfl hreach
  have hl : l.Nodup := by
    have hfirst : (s.atIndex index).candidates = l := hfixed [] _ List.nil_prefix rfl
    rw [← hfirst]
    exact hlists.candidates
  constructor
  · intro hstrategy hwindow
    exact inTurn (by rw [← hconfig] at hstrategy; exact hstrategy) hfixed hr hl hwindow
  · intro hstrategy hpos hsize hlength hwindow
    rw [← hconfig] at hstrategy
    exact ⟨byWeight hstrategy hfixed hr hl hpos hsize hlength hwindow, walksInside hstrategy hfixed hpos hsize⟩

/-- The first backend of the tests, and one of twice its weight. -/
def oneAndTwo : List Backend := [⟨"server1:8080", 1⟩, ⟨"server2:8080", 2⟩]

theorem selections_rotate_fairly_one_and_two :
    InTurn [⟨⟨"server1:8080", 1⟩, 0⟩, ⟨⟨"server2:8080", 2⟩, 1⟩]
      (((LoadBalancer.new ⟨.roundRobin, none⟩ true 0 oneAndTwo).atIndex 5).picks [.select 0, .select 0, .select 0]) ∧
    ByWeight [⟨⟨"server1:8080", 1⟩, 0⟩, ⟨⟨"server2:8080", 2⟩, 1⟩]
      (((LoadBalancer.new ⟨.weightedRoundRobin, none⟩ true 0 oneAndTwo).atIndex 5).picks
        [.select 0, .select 0, .select 0]) :=
  ⟨(selections_rotate_fairly ⟨.roundRobin, none⟩ true 0 oneAndTwo (run_nil _) 5 rfl (by decide)).1 rfl (by decide),
    ((selections_rotate_fairly ⟨.weightedRoundRobin, none⟩ true 0 oneAndTwo (run_nil _) 5 rfl (by decide)).2 rfl
      (by decide) (by decide) (by decide) (by decide)).1⟩

/-! ## Safe selections -/

/-- Along every run, from any value of the index, every selection is safe if and only if each one under
`Strategy::WeightedRoundRobin` finds a total weight that is neither zero nor too large for a `u32`. -/
theorem selections_are_safe_iff (config : LoadBalancerConfig) (overflowChecks : Bool) (now : Nat)
    (backends : List Backend) (index : UInt64) (es : List BalancerEvent) :
    Along LoadBalancer.step SafeSelection ((LoadBalancer.new config overflowChecks now backends).atIndex index) es ↔
      Along LoadBalancer.step WeightsFit ((LoadBalancer.new config overflowChecks now backends).atIndex index) es :=
  along_congr (I := fun _ => True) (fun _ _ _ _ _ _ => trivial) (fun _ _ _ => safeSelection_iff) trivial

/-- The only backend has weight zero; and the weights of two come to `2 ^ 32`. -/
theorem selections_by_weight_panic :
    (∀ overflowChecks,
      ((LoadBalancer.new ⟨.weightedRoundRobin, none⟩ overflowChecks 0 [⟨"server1:8080", 0⟩]).select 0).1 =
        .error .remainderByZero) ∧
    ((LoadBalancer.new ⟨.weightedRoundRobin, none⟩ true 0
      [⟨"server1:8080", 4294967295⟩, ⟨"server2:8080", 1⟩]).select 0).1 = .error .addOverflow ∧
    ((LoadBalancer.new ⟨.weightedRoundRobin, none⟩ false 0
      [⟨"server1:8080", 4294967295⟩, ⟨"server2:8080", 1⟩]).select 0).1 = .error .remainderByZero ∧
    ∀ overflowChecks, ¬ Along LoadBalancer.step SafeSelection
      (LoadBalancer.new ⟨.weightedRoundRobin, none⟩ overflowChecks 0 [⟨"server1:8080", 0⟩]) [.select 0] := by
  have hzero : ∀ overflowChecks, ((LoadBalancer.new ⟨.weightedRoundRobin, none⟩ overflowChecks 0
      [⟨"server1:8080", 0⟩]).select 0).1 = .error .remainderByZero := by decide
  refine ⟨hzero, by decide, by decide, fun overflowChecks h => ?_⟩
  obtain ⟨selected, hselected⟩ := (h.head 0 rfl).returns
  rw [hzero] at hselected
  cases hselected

/-! ## Out of rotation -/

/-- In every run without health checks no backend of an address that was taken out of rotation is left among the
candidates, if and only if each address is taken out while only the first backend that has it is healthy, if
any. Along such a run no selection returns one that was taken out. Other addresses keep their health along every
run. -/
theorem taken_out_of_rotation_iff (config : LoadBalancerConfig) (overflowChecks : Bool) (now : Nat)
    (backends : List Backend) (es : List BalancerEvent) (hes : ∀ e ∈ es, isCheck e = false) :
    (Always (traced LoadBalancer.step) OutOfRotation ([], .new config overflowChecks now backends) es ↔
      Along (traced LoadBalancer.step) MarksEvery ([], .new config overflowChecks now backends) es) ∧
    (Along (traced LoadBalancer.step) MarksEvery ([], .new config overflowChecks now backends) es →
      Along (traced LoadBalancer.step) SelectsInRotation ([], .new config overflowChecks now backends) es) ∧
    Along (traced LoadBalancer.step) KeepsOthers ([], .new config overflowChecks now backends) es := by
  have hiff : Always (traced LoadBalancer.step) OutOfRotation ([], .new config overflowChecks now backends) es ↔
      Along (traced LoadBalancer.step) MarksEvery ([], .new config overflowChecks now backends) es := by
    refine always_iff_along_under (I := OutOfRotation) (D := fun _ e => isCheck e = false) (fun _ h => h) ?_ ?_ ?_
      (OutOfRotation.new config overflowChecks now backends) (along_of_forall hes)
    · exact fun t e t' h hcheck hs => h.step_iff hcheck hs
    · exact fun t e t' h hcheck hmarks hs => (h.step_iff hcheck hs).mpr hmarks
    · exact fun t e _ _ hs => marksEvery_of_none hs
  refine ⟨hiff, fun hmarks => ?_, fun _ e _ t _ _ => keepsOthers t e⟩
  rintro pre e post t rfl hr roll rfl g hg
  exact (hiff.mpr hmarks) pre t (List.prefix_append pre _) hr g (select_mem hg)

/-- The address is added, taken out and brought back. -/
theorem taken_out_of_rotation_server1 :
    Along (traced LoadBalancer.step) SelectsInRotation ([], .new ⟨.roundRobin, none⟩ true 0 oneAndTwo)
      [.setBackendHealth 1 "server1:8080" false, .select 0, .select 0, .setBackendHealth 2 "server1:8080" true,
        .select 0] :=
  (taken_out_of_rotation_iff ⟨.roundRobin, none⟩ true 0 oneAndTwo _ (by decide)).2.1 (by decide)

/-- Two backends have the address. Only the first is marked, and the second is selected. -/
theorem second_entry_stays_in_rotation :
    ∃ s g, LoadBalancer.step (.new ⟨.roundRobin, none⟩ true 0 [⟨"server1:8080", 1⟩, ⟨"server1:8080", 1⟩])
        (.setBackendHealth 1 "server1:8080" false) = some s ∧
      (s.select 0).1 = .ok (some g) ∧ g.backend.address = "server1:8080" ∧
      ¬ Along (traced LoadBalancer.step) SelectsInRotation
        ([], .new ⟨.roundRobin, none⟩ true 0 [⟨"server1:8080", 1⟩, ⟨"server1:8080", 1⟩])
        [.setBackendHealth 1 "server1:8080" false, .select 0] := by
  refine ⟨_, _, rfl, rfl, rfl, fun h => ?_⟩
  have hselect := h [.setBackendHealth 1 "server1:8080" false] (.select 0) [] _ rfl rfl 0 rfl _ rfl
  revert hselect
  decide

/-! ## Calls in between -/

/-- Under `Strategy::LeastConnections`, in every interleaving of any number of calls in which at most `k` at once read
the list: from a moment when none does, an entry comes to have no more live guards than it had or than `k` more than
one that stays in rotation and none of whose guards is dropped. -/
theorem selections_stay_even (config : LoadBalancerConfig) (overflowChecks : Bool) (now : Nat)
    (backends : List Backend) {before es : List (Event BalancerEvent Unit)} {p p' : BalancerPool}
    (hstrategy : config.strategy = .leastConnections)
    (hreach : run balancerCalls.step (BalancerPool.fresh config overflowChecks now backends) before = some p)
    (hidle : p.shared.readers = 0) (hr : run balancerCalls.step p es = some p') (k r r' : Nat)
    (hreaders : Always balancerCalls.step (fun q => q.shared.readers ≤ k) p es)
    (hstays : Always balancerCalls.step (fun q => q.shared.balancer.InRotation r') p es)
    (hkeeps : Along balancerCalls.step (fun q e => ∀ q' ∈ balancerCalls.step q e,
      q.shared.balancer.liveGuards r' ≤ q'.shared.balancer.liveGuards r') p es) :
    p'.shared.balancer.liveGuards r ≤
      max (p.shared.balancer.liveGuards r) (p'.shared.balancer.liveGuards r' + k) := by
  have hcounted : ReadersCounted p := run_invariant (fun _ _ _ h hs => h.step hs) (ReadersCounted.fresh ..) hreach
  have hexact : p.shared.balancer.cells.Exact :=
    run_invariant (I := fun q => q.shared.balancer.cells.Exact) (fun _ _ _ h hs => exact_calls h hs)
      (exact_new config overflowChecks now backends) hreach
  have hconfig : p.shared.balancer.config = config :=
    run_invariant (I := fun q => q.shared.balancer.config = config) (fun _ _ _ h hs => (config_calls hs).trans h) rfl
      hreach
  have heven : Even k (p.shared.balancer.connections r) r r' p' := by
    refine run_preserves (C := fun q e => q.shared.readers ≤ k ∧ q.shared.balancer.InRotation r' ∧
      ∀ q' ∈ balancerCalls.step q e, q.shared.balancer.liveGuards r' ≤ q'.shared.balancer.liveGuards r')
      (fun q e q' h hC hs => h.step hC.1 hC.2.1 (hC.2.2 q' hs) hs) ?_ ?_ hr
    · exact .start hcounted hexact (by rw [hconfig, hstrategy]) hidle k r r'
    · intro pre e post q he hpre
      exact ⟨hreaders.along pre e post q he hpre, hstays.along pre e post q he hpre, hkeeps pre e post q he hpre⟩
  have hle := heven.spread.le
  rwa [connections_eq heven.exact, connections_eq heven.exact, connections_eq hexact] at hle

/-- Two calls read the counters before either raises one, and both take the first backend. -/
def selectTogether : List (Event BalancerEvent Unit) :=
  .spawn (.select 0) :: .spawn (.select 0) :: acts 0 (List.replicate 6 ()) ++ acts 1 (List.replicate 6 ()) ++
    [.act 0 (), .act 1 ()]

theorem selections_stay_even_together :
    ∃ p : BalancerPool, run balancerCalls.step (BalancerPool.fresh ⟨.leastConnections, none⟩ true 0 oneAndTwo)
        selectTogether = some p ∧
      (p.shared.balancer.liveGuards 0, p.shared.balancer.liveGuards 1) = (2, 0) ∧
      p.shared.balancer.liveGuards 0 ≤ max 0 (p.shared.balancer.liveGuards 1 + 2) := by
  have hrun : (run balancerCalls.step (BalancerPool.fresh ⟨.leastConnections, none⟩ true 0 oneAndTwo)
      selectTogether).map (fun p => (p.shared.balancer.liveGuards 0, p.shared.balancer.liveGuards 1)) =
        some (2, 0) := by decide
  obtain ⟨p, hr, hlive⟩ := Option.map_eq_some_iff.mp hrun
  exact ⟨p, hr, hlive, selections_stay_even ⟨.leastConnections, none⟩ true 0 oneAndTwo rfl (run_nil _) rfl hr 2 0 1
    (by decide) (by decide) (by decide)⟩

/-- In every interleaving of any number of calls, from a moment when no call reads the list and while the candidates
stay the same: under `Strategy::RoundRobin` with a candidate, and under `Strategy::WeightedRoundRobin` if the weights
of the candidates add up to more than zero and less than 2³², the calls pick, in the order in which they move the
index, what as many selections pick one after another, and so as fairly, if the index does not wrap; and once no call
reads the list again, each has returned what it has picked. -/
theorem calls_rotate_fairly (config : LoadBalancerConfig) (overflowChecks : Bool) (now : Nat)
    (backends : List Backend) {before es : List (Event BalancerEvent Unit)} {p p' : BalancerPool}
    (hreach : run balancerCalls.step (BalancerPool.fresh config overflowChecks now backends) before = some p)
    (hidle : p.shared.readers = 0) (hr : run balancerCalls.step p es = some p') {l : List BackendGuard}
    (hfixed : Always balancerCalls.step (fun q => q.shared.balancer.candidates = l) p es) :
    (config.strategy = .roundRobin → l ≠ [] →
      BalancerPool.picks p es =
        p.shared.balancer.picks (List.replicate (BalancerPool.picks p es).length (.select 0)) ∧
      (p.shared.balancer.roundRobinIndex.toNat + (BalancerPool.picks p es).length ≤ UInt64.size →
        InTurn l (BalancerPool.picks p es))) ∧
    (config.strategy = .weightedRoundRobin → 0 < totalWeight l → totalWeight l < UInt32.size →
      BalancerPool.picks p es =
        p.shared.balancer.picks (List.replicate (BalancerPool.picks p es).length (.select 0)) ∧
      ((BalancerPool.picks p es).length = totalWeight l →
        p.shared.balancer.roundRobinIndex.toUInt32.toNat + totalWeight l ≤ UInt32.size →
          ByWeight l (BalancerPool.picks p es))) ∧
    (config.strategy ≠ .leastConnections → p'.shared.readers = 0 → ∀ g,
      p'.tasks.count (.returned (some g)) =
        p.tasks.count (.returned (some g)) + (BalancerPool.picks p es).count (.ok (some g))) := by
  have hcounted : ReadersCounted p := run_invariant (fun _ _ _ h hs => h.step hs) (ReadersCounted.fresh ..) hreach
  have hconfig : p.shared.balancer.config = config :=
    run_invariant (I := fun q => q.shared.balancer.config = config) (fun _ _ _ h hs => (config_calls hs).trans h) rfl
      hreach
  have hlists : p.shared.balancer.ListsOnce :=
    run_invariant (I := fun q => q.shared.balancer.ListsOnce) (fun _ _ _ h hs => listsOnce_calls h hs)
      (.new config overflowChecks now backends) hreach
  have hl : p.shared.balancer.candidates = l := hfixed [] p List.nil_prefix rfl
  have hnodup : l.Nodup := hl ▸ hlists.candidates
  obtain ⟨s, hs, hlength, hkept⟩ := picks_replicate p.shared.balancer (BalancerPool.picks p es).length
  rw [hl] at hkept
  refine ⟨?_, ?_, ?_⟩
  · intro hstrategy hne
    rw [← hconfig] at hstrategy
    have heq := picks_eq (rotates_roundRobin hne) (by decide) hstrategy hcounted hidle hfixed hr
    refine ⟨heq, fun hwindow => ?_⟩
    rw [heq]
    exact inTurn hstrategy hkept hs hnodup (by rwa [hlength])
  · intro hstrategy hpos hsize
    rw [← hconfig] at hstrategy
    have heq := picks_eq (rotates_weighted hpos hsize) (by decide) hstrategy hcounted hidle hfixed hr
    refine ⟨heq, fun htotal hwindow => ?_⟩
    rw [heq]
    exact byWeight hstrategy hkept hs hnodup hpos hsize (by rw [hlength, htotal]) hwindow
  · intro hother hidle' g
    have hnamed : AllNamed p := by
      refine run_invariant (fun _ _ _ h hs => h.step hs) ?_ hreach
      exact ⟨hother, fun c hc => by cases hc⟩
    have hcounted' : ReadersCounted p' := run_invariant (fun _ _ _ h hs => h.step hs) hcounted hr
    rw [← hasPicked_idle hcounted hidle, ← hasPicked_idle hcounted' hidle']
    exact count_outputs (fun _ _ _ h hs => h.step hs) (fun _ _ _ h hs => hasPicked_step g h hs) hnamed hr

/-- Three calls read the flags together, and the second of them moves the index first. -/
def selectInTurn : List (Event BalancerEvent Unit) :=
  .spawn (.select 0) :: .spawn (.select 0) :: .spawn (.select 0) :: acts 0 (List.replicate 3 ()) ++
    acts 1 (List.replicate 4 ()) ++ acts 2 (List.replicate 4 ()) ++
      [.act 0 (), .act 1 (), .act 2 (), .act 0 ()]

theorem calls_rotate_fairly_in_turn :
    ∃ p : BalancerPool, run balancerCalls.step (BalancerPool.fresh ⟨.weightedRoundRobin, none⟩ true 0 oneAndTwo)
        selectInTurn = some p ∧
      ByWeight [⟨⟨"server1:8080", 1⟩, 0⟩, ⟨⟨"server2:8080", 2⟩, 1⟩]
        (BalancerPool.picks (BalancerPool.fresh ⟨.weightedRoundRobin, none⟩ true 0 oneAndTwo) selectInTurn) ∧
      p.tasks.count (.returned (some ⟨⟨"server2:8080", 2⟩, 1⟩)) = 2 := by
  have hrun : (run balancerCalls.step (BalancerPool.fresh ⟨.weightedRoundRobin, none⟩ true 0 oneAndTwo)
      selectInTurn).map (fun p => (p.shared.readers, p.tasks.count (.returned (some ⟨⟨"server2:8080", 2⟩, 1⟩)))) =
        some (0, 2) := by decide
  obtain ⟨p, hr, hp⟩ := Option.map_eq_some_iff.mp hrun
  exact ⟨p, hr, ((calls_rotate_fairly ⟨.weightedRoundRobin, none⟩ true 0 oneAndTwo (run_nil _) rfl hr (by decide)).2.1
    rfl (by decide) (by decide)).2 (by decide) (by decide), congrArg Prod.snd hp⟩

end NetworkSystem
