import NetworkSystem.Cache.Lemmas.Settling

/-!
# The mirror in every interleaving

As long as no `clear` is between its two locks, the queue mirrors the map once the call that holds the lock of the
map is done. A step at which a call takes that lock keeps this exactly when the call does so undisturbed; the
second lock of a `clear` does exactly when whatever the map holds is still to be queued.
-/

namespace NetworkSystem

open TaskPool Steps Cache

variable {K V : Type} [DecidableEq K] {config : CacheConfig} {s : Cache K V} {c : CacheCall K V} {key : K}

abbrev CachePool (K V : Type) : Type := Pool (SharedCache K V) (CacheCall K V)

/-- The calls of `clear` that are between their two locks. -/
def clearsUnderWay (p : CachePool K V) : Nat := p.total fun c => c.clears.toNat

/-- `Q` holds of the cache once the call that holds the lock of the map is done. -/
structure OnceDone (config : CacheConfig) (Q : Cache K V → Prop) (p : CachePool K V) : Prop where
  free : p.shared.entriesLocked = false → Q p.shared.cache
  held : ∀ c ∈ p.tasks, c.holds = true → Q (c.settle config p.shared.cache)

namespace CacheCall

/-- An `insert` does not find its key in the map, nor a `get` its entry expired, but under a `clear`; and a
`clear` that no other follows does not clear the queue of a key that is in the map. -/
def keepsMirror (config : CacheConfig) (p : CachePool K V) : CacheCall K V → CacheEvent K V → Bool
  | .getting key _, .get now =>
      decide (p.shared.entriesLocked = false → clearsUnderWay p = 0 →
        p.shared.cache.findsExpired config key now = false)
  | .inserting key _ _, .insert _ _ =>
      decide (p.shared.entriesLocked = false → clearsUnderWay p = 0 → key ∉ p.shared.cache.entries)
  | .clearingQueue, .order =>
      decide (clearsUnderWay p = 1 →
        ∀ key ∈ p.shared.cache.entries.keys, ∃ c ∈ p.tasks, c.owes key = true)
  | _, _ => true

theorem keepsMirror_of_holds {p : CachePool K V} {e : CacheEvent K V} (h : c.holds = true) :
    c.keepsMirror config p e = true := by
  cases c with
  | getting | inserting | clearingQueue => cases h
  | _ => rfl

end CacheCall

/-! ## The calls together -/

/-- The step keeps the mirror (`CacheCall.keepsMirror`). -/
def KeepsMirror (config : CacheConfig) (p : CachePool K V) : Event (CacheRequest K V) (CacheEvent K V) → Prop
  | .spawn _ => True
  | .act i e => ∀ c ∈ p.tasks[i]?, c.keepsMirror config p e = true

instance (p : CachePool K V) (ev : Event (CacheRequest K V) (CacheEvent K V)) :
    Decidable (KeepsMirror config p ev) :=
  match ev with
  | .spawn _ => isTrue trivial
  | .act _ _ => inferInstanceAs (Decidable (∀ _ ∈ _, _ = true))

structure MirrorKept (config : CacheConfig) (p : CachePool K V) : Prop where
  locked : p.shared.entriesLocked.toNat = p.total fun c => c.holds.toNat
  placed : ∀ c ∈ p.tasks, c.Placed p.shared.cache
  tight : clearsUnderWay p = 0 → OnceDone config (Tight config) p

theorem MirrorKept.fresh : MirrorKept config (SharedCache.fresh : CachePool K V) where
  locked := rfl
  placed := by intro c hc; cases hc
  tight := fun _ => ⟨fun _ => .new, (by intro c hc; cases hc)⟩

section

variable {p p' : CachePool K V} {i : Nat} {s' : SharedCache K V} {c' : CacheCall K V} {e : CacheEvent K V}

theorem OnceDone.mirrored (h : OnceDone config (Tight config) p) : OnceDone config Mirrored p :=
  ⟨fun hfree => (h.free hfree).mirrored, fun c hc hholds => (h.held c hc hholds).mirrored⟩

omit [DecidableEq K] in
/-- At most one call holds the lock of the map. -/
theorem not_holds_of_holds {d : CacheCall K V} {j : Nat}
    (hlocked : p.shared.entriesLocked.toNat = p.total fun c => c.holds.toNat) (hi : p.tasks[i]? = some c)
    (hj : p.tasks[j]? = some d) (hji : j ≠ i) (hc : c.holds = true) : d.holds = false := by
  have hle := add_le_total (fun c : CacheCall K V => c.holds.toNat) hi hj hji
  have hone : p.shared.entriesLocked.toNat ≤ 1 := Bool.toNat_le _
  rw [← hlocked, hc] at hle
  cases hd : d.holds with
  | false => rfl
  | true =>
      rw [hd] at hle
      exact absurd (Nat.le_trans hle hone) (by decide)

omit [DecidableEq K] in
theorem locked_of_holds {d : CacheCall K V}
    (hlocked : p.shared.entriesLocked.toNat = p.total fun c => c.holds.toNat) (hd : d ∈ p.tasks)
    (hdholds : d.holds = true) : p.shared.entriesLocked = true := by
  have hle := le_total_of_mem (fun c : CacheCall K V => c.holds.toNat) hd
  rw [← hlocked, hdholds] at hle
  exact Bool.toNat_eq_one.mp (Nat.le_antisymm (Bool.toNat_le _) hle)

/-- Where a call holds the lock of the map, or none does, it is this call that is waited for. -/
theorem onceDone_iff {Q : Cache K V → Prop}
    (hlocked : p.shared.entriesLocked.toNat = p.total fun c => c.holds.toNat) (hi : p.tasks[i]? = some c)
    (hc : p.shared.entriesLocked = c.holds) : OnceDone config Q p ↔ Q (c.settle config p.shared.cache) := by
  constructor
  · intro h
    cases hholds : c.holds with
    | true => exact h.held c (List.mem_of_getElem? hi) hholds
    | false =>
        rw [CacheCall.settle_of_not_holds hholds]
        exact h.free (hc.trans hholds)
  · intro hQ
    constructor
    · intro hfree
      rwa [CacheCall.settle_of_not_holds (hc.symm.trans hfree)] at hQ
    · intro d hd hdholds
      have hholds : c.holds = true := hc.symm.trans (locked_of_holds hlocked hd hdholds)
      obtain ⟨j, hj⟩ := List.getElem?_of_mem hd
      by_cases hji : j = i
      · subst hji
        rwa [Option.some.inj (hj.symm.trans hi)]
      · rw [not_holds_of_holds hlocked hi hj hji hholds] at hdholds
        cases hdholds

/-! ## One step -/

theorem locked_set (hlocked : p.shared.entriesLocked.toNat = p.total fun c => c.holds.toNat)
    (hi : p.tasks[i]? = some c) (h : CallStep config p.shared c e s' c') :
    s'.entriesLocked.toNat = Pool.total (fun c => c.holds.toNat) ⟨s', p.tasks.set i c'⟩ := by
  have hset := sum_map_set (fun c : CacheCall K V => c.holds.toNat) c' hi
  have hle := le_total_of_mem (fun c : CacheCall K V => c.holds.toNat) (List.mem_of_getElem? hi)
  rw [← hlocked] at hle
  have hstep := h.locking hle
  rw [Pool.total] at hlocked ⊢
  dsimp only at hset ⊢
  omega

theorem placed_set (hk : MirrorKept config p) (hi : p.tasks[i]? = some c)
    (h : CallStep config p.shared c e s' c') : ∀ d ∈ p.tasks.set i c', d.Placed s'.cache := by
  intro d hd
  obtain ⟨j, hj⟩ := List.getElem?_of_mem hd
  rcases getElem?_set_cases hj with ⟨rfl, rfl⟩ | ⟨hij, hj⟩
  · exact h.placed
  · have hmem := List.mem_of_getElem? hj
    cases hholds : d.holds with
    | false => exact .of_not_holds hholds
    | true =>
        have hlocked := locked_of_holds hk.locked hmem hholds
        cases hc : c.holds with
        | false => exact (hk.placed d hmem).of_entries (h.entries hc hlocked)
        | true =>
            rw [not_holds_of_holds hk.locked hi hj hij.symm hc] at hholds
            cases hholds

omit [DecidableEq K] in
theorem clearsUnderWay_set (s' : SharedCache K V) (c' : CacheCall K V) (hi : p.tasks[i]? = some c) :
    clearsUnderWay ⟨s', p.tasks.set i c'⟩ + c.clears.toNat = clearsUnderWay p + c'.clears.toNat :=
  sum_map_set (fun c : CacheCall K V => c.clears.toNat) c' hi

/-! ## What a step does to the mirror -/

/-- While no `clear` is between its locks, the queue mirrors the map once the call that holds it is done. -/
def MirroredOnceDone (config : CacheConfig) (p : CachePool K V) : Prop :=
  clearsUnderWay p = 0 → OnceDone config Mirrored p

/-- The call goes on from where it held the lock of the map, or from where nobody did. -/
theorem mirror_of_alone {C : Prop} (hk : MirrorKept config p) (hi : p.tasks[i]? = some c)
    (h : CallStep config p.shared c e s' c') (hbefore : p.shared.entriesLocked = c.holds)
    (hafter : s'.entriesLocked = c'.holds) (hclears : c'.clears = c.clears)
    (hop : Tight config (c.settle config p.shared.cache) →
      ((c'.settle config s'.cache).Mirrored ↔ C) ∧ (C → Tight config (c'.settle config s'.cache))) :
    (MirroredOnceDone config ⟨s', p.tasks.set i c'⟩ ↔ (clearsUnderWay p = 0 → C)) ∧
      ((clearsUnderWay p = 0 → C) → clearsUnderWay ⟨s', p.tasks.set i c'⟩ = 0 →
        OnceDone config (Tight config) ⟨s', p.tasks.set i c'⟩) := by
  have hcount := clearsUnderWay_set s' c' hi
  rw [hclears, Nat.add_right_cancel_iff] at hcount
  have hi' : (p.tasks.set i c')[i]? = some c' :=
    List.getElem?_set_self (List.getElem?_eq_some_iff.mp hi).1
  have hdone : ∀ Q : Cache K V → Prop, OnceDone config Q ⟨s', p.tasks.set i c'⟩ ↔ Q (c'.settle config s'.cache) :=
    fun Q => onceDone_iff (locked_set hk.locked hi h) hi' hafter
  unfold MirroredOnceDone
  rw [hcount, hdone, hdone]
  by_cases hzero : clearsUnderWay p = 0
  · obtain ⟨hiff, hkeep⟩ := hop ((onceDone_iff hk.locked hi hbefore).mp (hk.tight hzero))
    exact ⟨forall_congr' fun _ => hiff, fun hC _ => hkeep (hC hzero)⟩
  · exact ⟨forall_congr' fun h => absurd h hzero, fun _ h => absurd h hzero⟩

/-- A call that is undisturbed in any case. -/
theorem tight_of_alone (hk : MirrorKept config p) (hi : p.tasks[i]? = some c)
    (h : CallStep config p.shared c e s' c') (hbefore : p.shared.entriesLocked = c.holds)
    (hafter : s'.entriesLocked = c'.holds) (hclears : c'.clears = c.clears)
    (hkeep : Tight config (c.settle config p.shared.cache) → Tight config (c'.settle config s'.cache)) :
    clearsUnderWay ⟨s', p.tasks.set i c'⟩ = 0 → OnceDone config (Tight config) ⟨s', p.tasks.set i c'⟩ := by
  refine (mirror_of_alone (C := True) hk hi h hbefore hafter hclears fun ht => ?_).2 fun _ => trivial
  exact ⟨iff_of_true (hkeep ht).mirrored trivial, fun _ => hkeep ht⟩

theorem tight_of_idle (hk : MirrorKept config p) (hi : p.tasks[i]? = some c) (hc' : c'.holds = false)
    (hclears : c'.clears = c.clears) (hzero : clearsUnderWay ⟨p.shared, p.tasks.set i c'⟩ = 0) :
    OnceDone config (Tight config) ⟨p.shared, p.tasks.set i c'⟩ := by
  have hcount := clearsUnderWay_set p.shared c' hi
  rw [hclears, Nat.add_right_cancel_iff, hzero] at hcount
  have hdone := hk.tight hcount.symm
  refine ⟨hdone.free, ?_⟩
  intro d hd hholds
  rcases List.mem_or_eq_of_mem_set hd with hd | rfl
  · exact hdone.held d hd hholds
  · rw [hc'] at hholds
    cases hholds

/-- The call that holds the lock of the map when another clears the queue; where none does, the other. -/
theorem exists_settling (hk : MirrorKept config p) (hi : p.tasks[i]? = some .clearingQueue) :
    ∃ (j : Nat) (d : CacheCall K V), (p.tasks.set i (.returned .none))[j]? = some d ∧
      p.shared.entriesLocked = d.holds ∧ d.Placed p.shared.cache ∧
      ∀ key, d.owes key = true ↔ ∃ c ∈ p.tasks, c.owes key = true := by
  cases hlocked : p.shared.entriesLocked with
  | false =>
      refine ⟨i, .returned .none, List.getElem?_set_self (List.getElem?_eq_some_iff.mp hi).1, rfl, trivial, ?_⟩
      refine fun key => iff_of_false nofun ?_
      rintro ⟨c, hc, howes⟩
      have hheld := locked_of_holds hk.locked hc (CacheCall.holds_of_owes howes)
      rw [hlocked] at hheld
      cases hheld
  | true =>
      have hpos : 0 < p.total fun c => c.holds.toNat := by
        rw [← hk.locked, hlocked]
        exact Nat.one_pos
      rw [Pool.total_eq_countP, List.countP_pos_iff] at hpos
      obtain ⟨d, hd, hholds⟩ := hpos
      obtain ⟨j, hj⟩ := List.getElem?_of_mem hd
      have hij : i ≠ j := by
        rintro rfl
        rw [hi] at hj
        cases hj
        cases hholds
      refine ⟨j, d, (List.getElem?_set_ne hij).trans hj, hholds.symm, hk.placed d hd, ?_⟩
      intro key
      refine ⟨fun howes => ⟨d, hd, howes⟩, ?_⟩
      rintro ⟨c, hc, howes⟩
      obtain ⟨k, hck⟩ := List.getElem?_of_mem hc
      by_cases hkj : k = j
      · subst hkj
        rwa [Option.some.inj (hj.symm.trans hck)]
      · have hfree := not_holds_of_holds hk.locked hj hck hkj hholds
        rw [CacheCall.holds_of_owes howes] at hfree
        cases hfree

/-- The queue is cleared under a call that holds the map, or under none. -/
theorem mirror_of_clearQueue (hl : config.enableLru = true) (hk : MirrorKept config p)
    (hi : p.tasks[i]? = some .clearingQueue) {p' : CachePool K V}
    (hp' : p' = ⟨{ p.shared with cache := { p.shared.cache with lruOrder := [] } },
      p.tasks.set i (.returned .none)⟩)
    (hlocked : p'.shared.entriesLocked.toNat = p'.total fun c => c.holds.toNat) :
    (MirroredOnceDone config p' ↔ CacheCall.keepsMirror config p .clearingQueue .order = true) ∧
      (CacheCall.keepsMirror config p .clearingQueue .order = true → clearsUnderWay p' = 0 →
        OnceDone config (Tight config) p') := by
  have hcount : clearsUnderWay p' + 1 = clearsUnderWay p := hp' ▸ clearsUnderWay_set _ _ hi
  have hlast : clearsUnderWay p' = 0 ↔ clearsUnderWay p = 1 := by omega
  obtain ⟨j, d, hj, hheld, hplaced, howes⟩ := exists_settling hk hi
  have hdone : ∀ Q : Cache K V → Prop, OnceDone config Q p' ↔
      Q (d.settle config { p.shared.cache with lruOrder := [] }) := by
    intro Q
    subst hp'
    exact onceDone_iff hlocked hj hheld
  have hmirrored := CacheCall.settle_emptied hl hplaced
  have hkeeps : CacheCall.keepsMirror config p .clearingQueue .order = true ↔ (clearsUnderWay p = 1 →
      (d.settle config { p.shared.cache with lruOrder := [] }).Mirrored) := by
    rw [hmirrored, CacheCall.keepsMirror, decide_eq_true_iff]
    simp only [howes]
  unfold MirroredOnceDone
  rw [hkeeps, hdone, hdone, hlast]
  refine ⟨Iff.rfl, fun hm hone => ⟨hm hone, ?_⟩⟩
  rw [← (hm hone).length_eq]
  exact Nat.le_trans (CacheCall.settle_emptied_length hl) (Nat.le_max_right _ _)

/-- A step leaves the mirror, once the call under way is done, exactly when it meets `KeepsMirror`, and then it
leaves the map within its capacity as well. -/
theorem mirror_of_step (hl : config.enableLru = true) (hk : MirrorKept config p) (hi : p.tasks[i]? = some c)
    (h : CallStep config p.shared c e s' c') :
    (MirroredOnceDone config ⟨s', p.tasks.set i c'⟩ ↔ c.keepsMirror config p e = true) ∧
      (c.keepsMirror config p e = true → clearsUnderWay ⟨s', p.tasks.set i c'⟩ = 0 →
        OnceDone config (Tight config) ⟨s', p.tasks.set i c'⟩) := by
  have hkept : c.keepsMirror config p e = true → (clearsUnderWay ⟨s', p.tasks.set i c'⟩ = 0 →
      OnceDone config (Tight config) ⟨s', p.tasks.set i c'⟩) →
      (MirroredOnceDone config ⟨s', p.tasks.set i c'⟩ ↔ c.keepsMirror config p e = true) ∧
      (c.keepsMirror config p e = true → clearsUnderWay ⟨s', p.tasks.set i c'⟩ = 0 →
        OnceDone config (Tight config) ⟨s', p.tasks.set i c'⟩) := by
    intro hkeeps htight
    exact ⟨iff_of_true (fun h => (htight h).mirrored) hkeeps, fun _ => htight⟩
  have hstep := h
  have hcount := clearsUnderWay_set s' c' hi
  cases h with
  | @get key orInsert now s' c' h =>
      have halone := mirror_of_alone (C := p.shared.cache.findsExpired config key now = false) hk hi hstep h.free
        h.locked h.clears (fun ht => by rw [h.settled]; exact ht.get hl)
      simpa only [CacheCall.keepsMirror, decide_eq_true_eq, h.free, true_implies] using halone
  | @insert key value reply first now s' c' after h hinsert =>
      have halone := mirror_of_alone (C := key ∉ p.shared.cache.entries) hk hi hstep h.free h.locked h.clears
        (fun ht => by rw [h.settled]; exact ht.insert hl hinsert)
      simpa only [CacheCall.keepsMirror, decide_eq_true_eq, h.free, true_implies] using halone
  | @remove key s' c' h =>
      exact hkept rfl (tight_of_alone hk hi hstep h.free h.locked h.clears fun ht => h.settled ▸ ht.remove hl key)
  | @prune now s' c' h =>
      exact hkept rfl
        (tight_of_alone hk hi hstep h.free h.locked h.clears fun ht => h.settled ▸ ht.pruneExpired hl now)
  | order hc hlocked hclears hplaced hsettled =>
      have hheld : p.shared.entriesLocked = c.holds :=
        (locked_of_holds hk.locked (List.mem_of_getElem? hi) hc).trans hc.symm
      have hcalm : c.clears = false := by
        cases c with
        | clearingQueue => cases hc
        | _ => rfl
      exact hkept (CacheCall.keepsMirror_of_holds hc)
        (tight_of_alone hk hi hstep hheld hlocked (hclears.trans hcalm.symm) fun ht => hsettled ▸ ht)
  | compute => exact hkept rfl fun hzero => tight_of_idle hk hi rfl rfl hzero
  | noTtl => exact hkept rfl fun hzero => tight_of_idle hk hi rfl rfl hzero
  | clear hfree =>
      refine hkept rfl fun hzero => ?_
      rw [hzero] at hcount
      simp [CacheCall.clears] at hcount
  | clearQueue => exact mirror_of_clearQueue hl hk hi rfl (locked_set hk.locked hi hstep)

end

/-! ## Steps of the pool -/

variable {p p' : CachePool K V} {ev : Event (CacheRequest K V) (CacheEvent K V)}

omit [DecidableEq K] in
theorem start_idle (k : CacheRequest K V) :
    (CacheCall.start k).holds = false ∧ (CacheCall.start k).clears = false := by
  cases k <;> exact ⟨rfl, rfl⟩

theorem MirrorKept.step_iff (hl : config.enableLru = true) (hk : MirrorKept config p)
    (hs : (cacheCalls config).step p ev = some p') :
    (MirroredOnceDone config p' ↔ KeepsMirror config p ev) ∧ (KeepsMirror config p ev → MirrorKept config p') := by
  cases ev with
  | spawn k =>
      rw [Program.step_spawn] at hs
      cases hs
      obtain ⟨hholds, hclears⟩ := start_idle k
      have hcount : clearsUnderWay ⟨p.shared, p.tasks ++ [CacheCall.start k]⟩ = clearsUnderWay p := by
        simp [clearsUnderWay, Pool.total, hclears]
      have hnew : MirrorKept config ⟨p.shared, p.tasks ++ [CacheCall.start k]⟩ := by
        constructor
        · rw [hk.locked]
          simp [Pool.total, hholds]
        · intro d hd
          rcases List.mem_append.mp hd with hd | hd
          · exact hk.placed d hd
          · rw [List.mem_singleton.mp hd]
            exact .of_not_holds hholds
        · intro hzero
          have hdone := hk.tight (hcount ▸ hzero)
          refine ⟨hdone.free, ?_⟩
          intro d hd hdholds
          rcases List.mem_append.mp hd with hd | hd
          · exact hdone.held d hd hdholds
          · rw [List.mem_singleton.mp hd, hholds] at hdholds
            cases hdholds
      exact ⟨iff_of_true (fun h => (hnew.tight h).mirrored) trivial, fun _ => hnew⟩
  | act i e =>
      obtain ⟨c, s', c', hi, ha, rfl⟩ := Program.step_act.mp hs
      have hstep := SharedCache.callStep_step hl ha
      have hkeeps : KeepsMirror config p (.act i e) ↔ c.keepsMirror config p e = true := by
        rw [KeepsMirror, hi]
        simp
      obtain ⟨hiff, htight⟩ := mirror_of_step hl hk hi hstep
      rw [hkeeps]
      exact ⟨hiff, fun h => ⟨locked_set hk.locked hi hstep, placed_set hk hi hstep, htight h⟩⟩

/-- A step that is refused waits for the lock of the map. -/
theorem keepsMirror_of_refused (hl : config.enableLru = true) (hs : (cacheCalls config).step p ev = none) :
    KeepsMirror config p ev := by
  cases ev with
  | spawn k => cases hs
  | act i e =>
      intro c hi
      rw [Option.mem_def] at hi
      simp only [Program.step, hi, Option.bind_some, Option.map_eq_none_iff] at hs
      have hrefused : SharedCache.callStep config p.shared c e = none := hs
      unfold CacheCall.keepsMirror
      unfold SharedCache.callStep at hrefused
      split
      · rw [decide_eq_true_iff]
        intro hfree
        simp [hfree] at hrefused
      · rw [decide_eq_true_iff]
        intro hfree
        simp only [hfree, Bool.false_eq_true, ↓reduceIte] at hrefused
        exact absurd hrefused (SharedCache.insert_ne_none hl)
      · cases hrefused
      · rfl

theorem MirroredOnceDone.always_iff (hl : config.enableLru = true)
    (es : List (Event (CacheRequest K V) (CacheEvent K V))) :
    Always (cacheCalls config).step (MirroredOnceDone config) SharedCache.fresh es ↔
      Along (cacheCalls config).step (KeepsMirror config) SharedCache.fresh es := by
  have hfresh : MirrorKept config (SharedCache.fresh : CachePool K V) := .fresh
  refine always_iff_along ?_ ?_ ?_ ?_ hfresh
  · exact fun p hk hzero => (hk.tight hzero).mirrored
  · exact fun p ev p' hk hs => (hk.step_iff hl hs).1
  · exact fun p ev p' hk hC hs => (hk.step_iff hl hs).2 hC
  · exact fun p ev _ hs => keepsMirror_of_refused hl hs

/-! ## States with nothing under way -/

def CacheCall.isReturned : CacheCall K V → Bool
  | .returned _ => true
  | _ => false

def AllReturned (p : CachePool K V) : Prop := ∀ c ∈ p.tasks, c.isReturned = true

instance (p : CachePool K V) : Decidable (AllReturned p) := inferInstanceAs (Decidable (∀ _ ∈ _, _ = true))

omit [DecidableEq K] in
theorem total_of_returned {g : CacheCall K V → Bool} {p : CachePool K V} (h : AllReturned p)
    (hg : ∀ reply, g (.returned reply) = false) : (p.total fun c => (g c).toNat) = 0 := by
  rw [Pool.total_eq_countP, List.countP_eq_zero]
  intro c hc
  have hreturned := h c hc
  cases c with
  | returned reply => simp [hg reply]
  | _ => cases hreturned

theorem MirrorKept.tight_of_returned (hk : MirrorKept config p) (h : AllReturned p) :
    p.shared.cache.Tight config := by
  have hzero : clearsUnderWay p = 0 := total_of_returned h fun _ => rfl
  have hfree : p.shared.entriesLocked.toNat = 0 := hk.locked.trans (total_of_returned h fun _ => rfl)
  exact (hk.tight hzero).free (Bool.toNat_eq_zero.mp hfree)

end NetworkSystem
