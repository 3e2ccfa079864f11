import NetworkSystem.Client.Lemmas.Connect
import NetworkSystem.Client.Schedule

/-!
# The loop of `reconnect` and its schedule

The loop has the number of the next attempt and the delay after it in step, and stops at the first attempt that
reaches the server or at the last one.
-/

namespace NetworkSystem

/-! ## The delays -/

theorem delayMs_succ {i : Nat} (hi : 0 < i) : delayMs (i + 1) = min (delayMs i * 2) maxDelayMs := by
  obtain ⟨j, rfl⟩ := Nat.exists_eq_add_one_of_ne_zero hi.ne'
  rfl

theorem toNat_min (a b : UInt64) : (min a b).toNat = min a.toNat b.toNat := by
  have hmin : min a b = if a ≤ b then a else b := rfl
  rw [hmin]
  split
  · rename_i hle
    exact (Nat.min_eq_left (UInt64.le_iff_toNat_le.mp hle)).symm
  · rename_i hlt
    have hle : b.toNat ≤ a.toNat := Nat.le_of_not_le fun hle => hlt (UInt64.le_iff_toNat_le.mpr hle)
    exact (Nat.min_eq_right hle).symm

theorem backoff_succ {i : Nat} (hi : 0 < i) : backoff (i + 1) = min (backoff i * 2) 30000 := by
  obtain ⟨j, rfl⟩ := Nat.exists_eq_add_one_of_ne_zero hi.ne'
  simp only [backoff, Nat.add_sub_cancel, Nat.pow_succ]
  omega

theorem backoff_le (i : Nat) : backoff i ≤ 30000 := Nat.min_le_right _ _

/-- The delay doubles until it reaches its cap, so that doubling it never overflows. -/
theorem toNat_delayMs : ∀ i, (delayMs i).toNat = backoff i
  | 0 => rfl
  | 1 => rfl
  | i + 2 => by
      have ih := toNat_delayMs (i + 1)
      have hle := backoff_le (i + 1)
      have hdouble : (delayMs (i + 1) * 2).toNat = backoff (i + 1) * 2 := by
        have htwo : (2 : UInt64).toNat = 2 := rfl
        rw [UInt64.toNat_mul, ih, htwo]
        exact Nat.mod_eq_of_lt (by omega)
      rw [delayMs_succ (Nat.succ_pos i), backoff_succ (Nat.succ_pos i), toNat_min, hdouble]
      rfl

theorem delayFits (attempts : Attempts) (i : Nat) : DelayFits attempts i := by
  have hdelay := toNat_delayMs i
  have hle := backoff_le i
  have hjitter := (attempts.jitter i).isLt
  have hsum : (delayMs i).toNat + attempts.jitter i < UInt64.size := by
    rw [hdelay]
    exact (Nat.add_lt_add_of_le_of_lt hle hjitter).trans (by decide)
  refine ⟨hdelay, ?_, hsum, ?_⟩
  · rw [UInt64.toNat_add, UInt64.toNat_ofNat', Nat.mod_eq_of_lt (Nat.lt_of_le_of_lt (Nat.le_add_left _ _) hsum)]
    rw [Nat.mod_eq_of_lt hsum, hdelay]
  · rw [hdelay]
    exact (Nat.mul_le_mul_right 2 hle).trans_lt (by decide)

namespace Client

variable {A : Type} {parse : String → Except String A} {c : Client} {attempts : Attempts}

/-! ## The last attempt -/

/-- Attempt `m` is the last one: none before it reaches the server, and it does unless it is the last allowed. -/
structure StopsAt (parse : String → Except String A) (c : Client) (attempts : Attempts) (m : Nat) : Prop where
  pos : 0 < c.config.maxReconnectAttempts → 0 < m
  le : m ≤ c.config.maxReconnectAttempts
  before : ∀ i, 0 < i → i < m → c.reaches parse (attempts.net i) = false
  stops : m < c.config.maxReconnectAttempts → c.reaches parse (attempts.net m) = true

theorem firstReached_eq_some {k : Nat} (h : c.firstReached parse attempts = some k) :
    c.reaches parse (attempts.net k) = true ∧ (0 < k ∧ k ≤ c.config.maxReconnectAttempts) ∧
      ∀ i, 0 < i → i < k → c.reaches parse (attempts.net i) = false := by
  obtain ⟨hreaches, hmem, hbefore⟩ := List.find?_range'_eq_some.mp h
  rw [List.mem_range'_1] at hmem
  refine ⟨hreaches, ⟨hmem.1, by omega⟩, fun i hpos hi => ?_⟩
  exact Bool.eq_false_of_not_eq_true' (hbefore i hpos hi)

theorem firstReached_eq_none (h : c.firstReached parse attempts = none) {i : Nat} (hpos : 0 < i)
    (hi : i ≤ c.config.maxReconnectAttempts) : c.reaches parse (attempts.net i) = false := by
  have hnone := List.find?_eq_none.mp h i (List.mem_range'_1.mpr ⟨hpos, by omega⟩)
  exact Bool.eq_false_of_not_eq_true hnone

theorem attemptsMade_stopsAt (parse : String → Except String A) (c : Client) (attempts : Attempts) :
    StopsAt parse c attempts (c.attemptsMade parse attempts) := by
  unfold attemptsMade
  cases hfirst : c.firstReached parse attempts with
  | some k =>
      obtain ⟨hreaches, ⟨hpos, hle⟩, hbefore⟩ := firstReached_eq_some hfirst
      exact ⟨fun _ => hpos, hle, hbefore, fun _ => hreaches⟩
  | none =>
      refine ⟨id, Nat.le_refl _, fun i hpos hi => ?_, fun h => absurd h (Nat.lt_irrefl _)⟩
      exact firstReached_eq_none hfirst hpos (Nat.le_of_lt hi)

/-! ## The loop -/

/-- A reconnecting attempt does not look at the state. -/
theorem connectInternal_setState (parse : String → Except String A) (c : Client) (net : Attempt) (state : ClientState) :
    ((c.setState state).connectInternal parse true net).1 = (c.connectInternal parse true net).1 := rfl

theorem scheduled_last {made : Nat} : c.scheduled parse attempts made made =
    [.attempt (c.connectInternal parse true (attempts.net made)).1] := by
  unfold scheduled
  rw [if_neg (Nat.lt_irrefl _)]

theorem scheduled_next {made i : Nat} (h : i < made) : c.scheduled parse attempts made i =
    [.attempt (c.connectInternal parse true (attempts.net i)).1,
      .sleep (delayMs i + .ofNat (attempts.jitter i))] := by
  unfold scheduled
  rw [if_pos h]

/-- The loop after `j` attempts that failed, with `left` to go. -/
theorem reconnectLoop_actions {m : Nat} (hm : StopsAt parse c attempts m) (left j : Nat) (state : ClientState)
    (hleft : j + left = c.config.maxReconnectAttempts) (hj : left ≠ 0 → j < m) :
    ((c.setState state).reconnectLoop parse attempts c.config.maxReconnectAttempts left (delayMs (j + 1))).actions =
      (List.range' (j + 1) (m - j)).flatMap (c.scheduled parse attempts m) := by
  induction left generalizing j state with
  | zero =>
      have hnone : m - j = 0 := Nat.sub_eq_zero_of_le (hm.le.trans (Nat.le_of_eq hleft.symm))
      rw [hnone]
      rfl
  | succ left ih =>
      have hadmitted : (c.setState state).attemptAdmitted true = true := rfl
      have hlt : j < m := hj (Nat.succ_ne_zero left)
      have hattempt : c.config.maxReconnectAttempts - left = j + 1 := by omega
      have hrange : List.range' (j + 1) (m - j) = (j + 1) :: List.range' (j + 2) (m - (j + 1)) := by
        rw [show m - j = m - (j + 1) + 1 by omega, List.range'_succ]
      have hcall := connectInternal_setState parse c (attempts.net (j + 1)) state
      unfold reconnectLoop
      rw [hattempt, hrange, List.flatMap_cons]
      cases hnet : c.reaches parse (attempts.net (j + 1)) with
      | true =>
          -- an earlier end than the first success would contradict `hm`
          have hlast : m = j + 1 := by
            by_contra hne
            have hbefore := hm.before (j + 1) (Nat.succ_pos j) (by omega)
            rw [hnet] at hbefore
            cases hbefore
          subst hlast
          rw [scheduled_last, ← hcall]
          simp [connectInternal_reaches hadmitted hnet]
      | false =>
          obtain ⟨e, he⟩ := connectInternal_fails hadmitted hnet
          rw [he] at hcall
          simp only [he, ↓reduceIte]
          split
          · rename_i hend
            have hlast : m = j + 1 := by
              have hle := hm.le
              omega
            subst hlast
            rw [scheduled_last, ← hcall]
            simp
          · rename_i hmore
            have hnext : j + 1 < m := by
              by_contra hge
              have hstops := hm.stops (by omega)
              rw [show m = j + 1 by omega, hnet] at hstops
              cases hstops
            have hrest := ih (j + 1) .reconnecting (by omega) fun _ => hnext
            rw [delayMs_succ (Nat.succ_pos j)] at hrest
            rw [scheduled_next hnext, ← hcall]
            exact congrArg (_ :: _ :: ·) hrest

theorem reconnect_actions (parse : String → Except String A) (c : Client) (attempts : Attempts) :
    (c.reconnect parse attempts).actions = c.schedule parse attempts := by
  have hm := attemptsMade_stopsAt parse c attempts
  exact reconnectLoop_actions hm c.config.maxReconnectAttempts 0 c.state (Nat.zero_add _)
    fun hne => hm.pos (Nat.pos_of_ne_zero hne)

theorem scheduled_attempts {made i : Nat} :
    (c.scheduled parse attempts made i).countP ReconnectAction.isAttempt = 1 := by
  unfold scheduled
  split <;> rfl

theorem schedule_attempts (parse : String → Except String A) (c : Client) (attempts : Attempts) :
    (c.schedule parse attempts).countP ReconnectAction.isAttempt = c.attemptsMade parse attempts := by
  unfold schedule
  rw [List.countP_flatMap]
  simp [Function.comp_def, scheduled_attempts]

theorem reachesAgain_iff : c.reachesAgain parse attempts = (c.firstReached parse attempts).isSome := by
  unfold reachesAgain firstReached
  rw [Bool.eq_iff_iff, List.any_eq_true, List.find?_isSome, List.range'_eq_map_range]
  simp [Nat.add_comm]

theorem reconnect_keeps (parse : String → Except String A) (c : Client) (attempts : Attempts) :
    c.KeepsSchedule parse attempts (c.reconnect parse attempts) := by
  have hactions := reconnect_actions parse c attempts
  have hends := reconnect_ends parse c attempts
  rw [reachesAgain_iff] at hends
  refine ⟨hactions, by rw [hactions, schedule_attempts], fun k hk => ?_, fun hnone => ?_⟩
  · cases hends with
    | reached hreaches hresult hclient => exact ⟨hresult, by rw [hclient]; rfl⟩
    | failed e hreaches => simp [hk] at hreaches
  · cases hends with
    | reached hreaches => simp [hnone] at hreaches
    | failed e hreaches hresult hclient => exact ⟨⟨_, hresult⟩, by rw [hclient]; rfl⟩

end Client

end NetworkSystem
