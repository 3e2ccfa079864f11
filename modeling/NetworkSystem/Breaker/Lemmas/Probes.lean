import NetworkSystem.Breaker.Lemmas.Calls

/-!
# The successes that close a half-open breaker

A half-open breaker counts every success that is recorded, whoever made the call and whenever it was let
through. `Probed` keeps beside the calls which of them were let through since the breaker went half-open, and
relates the count to them.
-/

namespace NetworkSystem

open Steps

/-- The call that makes the event. -/
def BreakerEvent.caller : BreakerEvent → Option Nat
  | .enter i | .record i => some i
  | _ => none

structure Probed where
  calls : BreakerCalls := ⟨{}, []⟩
  /-- The calls let through since the breaker last went half-open, by the transition itself included. -/
  probes : List Nat := []
  /-- The calls that recorded a success in that half-open period, the latest first; `none` is a direct
  `record_success`. -/
  successes : List (Option Nat) := []
  deriving Repr, DecidableEq

namespace Probed

def watch (s : Probed) (e : BreakerEvent) (calls : BreakerCalls) : Probed :=
  match s.calls.breaker.state, e.op s.calls with
  | .«open», some .isRequestAllowed =>
      if calls.breaker.state = .halfOpen then ⟨calls, e.caller.toList, []⟩ else { s with calls := calls }
  | .halfOpen, some .isRequestAllowed => { s with calls := calls, probes := e.caller.toList ++ s.probes }
  | .halfOpen, some .recordSuccess => { s with calls := calls, successes := e.caller :: s.successes }
  | _, _ => { s with calls := calls }

def step (config : CircuitBreakerConfig) : Clocked Probed → Nat × BreakerEvent → Option (Clocked Probed) :=
  clocked fun s now e => (s.calls.callStep config now e).map (s.watch e)

def fresh : Clocked Probed := ⟨0, {}⟩

def isProbe (s : Probed) (caller : Option Nat) : Bool := caller.any s.probes.contains

/-- When the event closes the half-open breaker, successes of probes reached the threshold. -/
def RecoversOnProbes (config : CircuitBreakerConfig) (c : Clocked Probed) (e : Nat × BreakerEvent) : Prop :=
  ∀ c' ∈ step config c e, e.2 ≠ .direct .reset → c.state.calls.breaker.state = .halfOpen →
    c'.state.calls.breaker.state = .closed →
      config.successThreshold.toNat ≤ c'.state.successes.countP c'.state.isProbe

/-- When the event is the success that fills the count of the half-open breaker, it and the successes counted
before are all of probes; or the threshold asks for none. -/
def FilledByProbes (config : CircuitBreakerConfig) (c : Clocked Probed) (e : Nat × BreakerEvent) : Prop :=
  c.now ≤ e.1 → c.state.calls.breaker.state = .halfOpen → e.2.op c.state.calls = some .recordSuccess →
    config.successThreshold ≤ c.state.calls.breaker.successCount + 1 →
      config.successThreshold = 0 ∨ ∀ caller ∈ e.2.caller :: c.state.successes, c.state.isProbe caller = true

instance (config : CircuitBreakerConfig) (c : Clocked Probed) (e : Nat × BreakerEvent) :
    Decidable (RecoversOnProbes config c e) :=
  inferInstanceAs (Decidable (∀ c' ∈ step config c e, _ → _ → _ → _ ≤ _))

instance (config : CircuitBreakerConfig) (c : Clocked Probed) (e : Nat × BreakerEvent) :
    Decidable (FilledByProbes config c e) :=
  inferInstanceAs (Decidable (_ → _ → _ → _ → _ ∨ ∀ caller ∈ e.2.caller :: c.state.successes, _))

/-! ## What the count stands for -/

/-- While the breaker is half-open `success_count` is the number of successes of the period, and they have not
reached the threshold. -/
structure Counted (config : CircuitBreakerConfig) (s : Probed) : Prop where
  counted : s.calls.breaker.state = .halfOpen → s.calls.breaker.successCount.toNat = s.successes.length
  below : s.calls.breaker.state = .halfOpen →
    s.calls.breaker.successCount = 0 ∨ s.calls.breaker.successCount < config.successThreshold

variable {config : CircuitBreakerConfig} {s : Probed} {now : Nat} {e : BreakerEvent} {calls : BreakerCalls}

@[simp]
theorem watch_calls : (s.watch e calls).calls = calls := by
  unfold watch
  split
  · split <;> rfl
  all_goals rfl

theorem watch_of_none (h : e.op s.calls = none) : s.watch e calls = { s with calls := calls } := by
  simp only [watch, h]
  split <;> simp_all only [reduceCtorEq]

theorem watch_recordSuccess (hs : s.calls.breaker.state = .halfOpen)
    (h : e.op s.calls = some .recordSuccess) :
    s.watch e calls = { s with calls := calls, successes := e.caller :: s.successes } := by
  unfold watch
  rw [hs, h]

theorem callStep_some {op : BreakerOp} (h : s.calls.callStep config now e = some calls)
    (hop : e.op s.calls = some op) : BreakerStep config s.calls.breaker now op calls.breaker := by
  have hbreaker := BreakerCalls.callStep_breaker h
  rw [hop] at hbreaker
  rw [hbreaker]
  exact CircuitBreaker.apply_step

/-- A success to record is recorded. -/
theorem callStep_recordSuccess (config : CircuitBreakerConfig) (now : Nat) {b : BreakerCalls}
    (hop : e.op b = some .recordSuccess) :
    ∃ calls, b.callStep config now e = some calls := by
  cases e with
  | direct op => exact ⟨_, rfl⟩
  | record i =>
      simp only [BreakerEvent.op] at hop
      split at hop
      · rename_i hi
        simp only [BreakerCalls.callStep, hi]
        exact ⟨_, rfl⟩
      · cases hop
  | enter i => cases hop
  | call | poll | drop => cases hop

theorem callStep_none (h : s.calls.callStep config now e = some calls) (hop : e.op s.calls = none) :
    calls.breaker = s.calls.breaker := by
  have hbreaker := BreakerCalls.callStep_breaker h
  rw [hop] at hbreaker
  exact hbreaker

/-- The successes of the period are those before it and the one that is recorded, or none when it begins. -/
theorem watch_successes (calls : BreakerCalls) {op : BreakerOp} (hop : e.op s.calls = some op) :
    (s.watch e calls).successes =
    if s.calls.breaker.state = .«open» ∧ op = .isRequestAllowed ∧ calls.breaker.state = .halfOpen then []
    else if s.calls.breaker.state = .halfOpen ∧ op = .recordSuccess then e.caller :: s.successes
    else s.successes := by
  simp only [watch, hop]
  cases s.calls.breaker.state <;> cases op <;> simp
  split <;> rfl

theorem Counted.fresh : Counted config {} where
  counted := nofun
  below := nofun

theorem Counted.toNat_succ (h : Counted config s) (hs : s.calls.breaker.state = .halfOpen) :
    (s.calls.breaker.successCount + 1).toNat = s.successes.length + 1 := by
  rw [← h.counted hs]
  rcases h.below hs with h₀ | hlt
  · rw [h₀]
    rfl
  · exact toNat_add_one_of_lt hlt

theorem Counted.length_lt (h : Counted config s) (hs : s.calls.breaker.state = .halfOpen)
    (hn : config.successThreshold ≠ 0) : s.successes.length < config.successThreshold.toNat := by
  rw [← h.counted hs]
  rcases h.below hs with h₀ | hlt
  · rw [h₀]
    exact Nat.pos_of_ne_zero fun hz => hn (UInt32.toNat_inj.mp hz)
  · exact UInt32.lt_iff_toNat_lt.mp hlt

theorem Counted.watch (h : Counted config s) (hcall : s.calls.callStep config now e = some calls) :
    Counted config (s.watch e calls) := by
  cases hop : e.op s.calls with
  | none =>
      rw [watch_of_none hop]
      have hbreaker := callStep_none hcall hop
      exact ⟨by rw [hbreaker]; exact h.counted, by rw [hbreaker]; exact h.below⟩
  | some op =>
      have hb := callStep_some hcall hop
      have hsuccesses := watch_successes calls hop
      constructor <;> simp only [watch_calls, hsuccesses] <;> intro hhalf
      · generalize calls.breaker = b' at hb hhalf
        cases hb with
        | pass h₀ => simp [h₀, h.counted hhalf]
        | probe h₀ => simp [h₀]
        | recover | trip | reopen | reset => cases hhalf
        | refuse h₀ | ignore h₀ | track h₀ => exact absurd (h₀.symm.trans hhalf) nofun
        | succeed h₀ | fail h₀ => exact absurd (h₀.symm.trans hhalf) nofun
        | progress h₀ hc => simp [h₀, h.toNat_succ h₀]
      · generalize calls.breaker = b' at hb hhalf
        cases hb with
        | pass h₀ => exact h.below hhalf
        | probe h₀ => exact Or.inl rfl
        | recover | trip | reopen | reset => cases hhalf
        | refuse h₀ | ignore h₀ | track h₀ => exact absurd (h₀.symm.trans hhalf) nofun
        | succeed h₀ | fail h₀ => exact absurd (h₀.symm.trans hhalf) nofun
        | progress h₀ hc => exact Or.inr (UInt32.not_le.mp hc)

theorem Counted.step {c c' : Clocked Probed} {e : Nat × BreakerEvent} (h : Counted config c.state)
    (hs : Probed.step config c e = some c') : Counted config c'.state := by
  obtain ⟨-, hs, -⟩ := clocked_eq_some.mp hs
  obtain ⟨calls, hcall, hwatch⟩ := Option.map_eq_some_iff.mp hs
  rw [← hwatch]
  exact h.watch hcall

/-! ## The success that fills the count -/

/-- Only a success that fills the count, or a reset, closes a half-open breaker. -/
theorem closes_iff {op : BreakerOp} {b b' : CircuitBreaker} (hb : BreakerStep config b now op b')
    (hs : b.state = .halfOpen) (hreset : op ≠ .reset) :
    b'.state = .closed ↔ op = .recordSuccess ∧ config.successThreshold ≤ b.successCount + 1 := by
  cases hb with
  | pass | fail => simp [hs]
  | probe h₀ | refuse h₀ | track h₀ | ignore h₀ | succeed h₀ | trip h₀ =>
      exact absurd (h₀.symm.trans hs) nofun
  | recover _ hc => simp [hc]
  | progress _ hc => simp [hs, hc]
  | reopen => simp
  | reset => exact absurd rfl hreset

/-- The successes that fill the count are exactly as many as the threshold, so that those of probes reach it if
and only if they are all of probes. -/
theorem Counted.filled_iff (h : Counted config s) (hs : s.calls.breaker.state = .halfOpen)
    (hc : config.successThreshold ≤ s.calls.breaker.successCount + 1) (caller : Option Nat) :
    config.successThreshold.toNat ≤ (caller :: s.successes).countP s.isProbe ↔
      config.successThreshold = 0 ∨ ∀ w ∈ caller :: s.successes, s.isProbe w = true := by
  have hle : config.successThreshold.toNat ≤ (caller :: s.successes).length := by
    rw [List.length_cons, ← h.toNat_succ hs]
    exact UInt32.le_iff_toNat_le.mp hc
  have hcount : (caller :: s.successes).countP s.isProbe ≤ (caller :: s.successes).length :=
    List.countP_le_length
  rw [← List.countP_eq_length]
  constructor
  · intro hreached
    by_cases hn : config.successThreshold = 0
    · exact Or.inl hn
    · have hlt := h.length_lt hs hn
      rw [List.length_cons] at hcount ⊢
      exact Or.inr (by omega)
  · rintro (h₀ | hall)
    · simp [h₀]
    · rw [hall]
      exact hle

theorem Counted.recovers_iff {c : Clocked Probed} {e : Nat × BreakerEvent} (h : Counted config c.state) :
    RecoversOnProbes config c e ↔ FilledByProbes config c e := by
  constructor
  · intro hrecovers hle hs hop hc
    obtain ⟨calls, hcall⟩ := callStep_recordSuccess config e.1 hop
    have hstep : Probed.step config c e = some ⟨e.1, c.state.watch e.2 calls⟩ :=
      clocked_eq_some.mpr ⟨hle, by rw [hcall]; rfl, rfl⟩
    have hreset : e.2 ≠ .direct .reset := by
      intro he
      rw [he] at hop
      cases hop
    have hclosed := (closes_iff (callStep_some hcall hop) hs nofun).mpr ⟨rfl, hc⟩
    have hcount := hrecovers _ hstep hreset hs (by rw [watch_calls]; exact hclosed)
    rw [watch_recordSuccess hs hop] at hcount
    exact (h.filled_iff hs hc e.2.caller).mp hcount
  · intro hfilled c' hc' hreset hs hclosed
    obtain ⟨hle, hstep, -⟩ := clocked_eq_some.mp hc'
    obtain ⟨calls, hcall, hwatch⟩ := Option.map_eq_some_iff.mp hstep
    rw [← hwatch, watch_calls] at hclosed
    cases hop : e.2.op c.state.calls with
    | none =>
        rw [callStep_none hcall hop, hs] at hclosed
        cases hclosed
    | some op =>
        have hne : op ≠ .reset := by
          rintro rfl
          exact hreset (BreakerEvent.op_eq_reset hop)
        obtain ⟨rfl, hc⟩ := (closes_iff (callStep_some hcall hop) hs hne).mp hclosed
        rw [← hwatch, watch_recordSuccess hs hop]
        exact (h.filled_iff hs hc e.2.caller).mpr (hfilled hle hs hop hc)

end Probed

end NetworkSystem
