import NetworkSystem.Cache.Lemmas.Entries

/-!
# The cache and its history

The history of a run records what was inserted, removed and cleared, without regard to the capacity. Every
entry of the cache is the last insertion of its key.
-/

namespace NetworkSystem

inductive CacheRecord (K V : Type) where
  | inserted (key : K) (value : V) (now : Nat)
  | removed (key : K)
  | cleared
  deriving Repr, DecidableEq

variable {K V : Type} [DecidableEq K]

/-- The value and the time of the last insertion of the key that no removal and no clear followed. The
latest record comes first. -/
def lastInsertion (key : K) : List (CacheRecord K V) → Option (V × Nat)
  | [] => none
  | .inserted k value now :: history => if k = key then some (value, now) else lastInsertion key history
  | .removed k :: history => if k = key then none else lastInsertion key history
  | .cleared :: _ => none

structure RecordedCache (K V : Type) where
  cache : Cache K V
  history : List (CacheRecord K V)

namespace RecordedCache

/-- What the call adds to the history; a `get_or_insert_with` inserts when its `get` misses. -/
def record (config : CacheConfig) (s : RecordedCache K V) : CacheOp K V → List (CacheRecord K V)
  | .insert key value _ now => .inserted key value now :: s.history
  | .remove key => .removed key :: s.history
  | .clear => .cleared :: s.history
  | .getOrInsertWith key asked value _ now =>
      match (s.cache.get config key asked).1 with
      | some _ => s.history
      | none => .inserted key value now :: s.history
  | .get _ _ | .pruneExpired _ => s.history

def step (config : CacheConfig) (s : RecordedCache K V) (op : CacheOp K V) :
    Option (RecordedCache K V) :=
  (s.cache.apply config op).map fun r => ⟨r.2, s.record config op⟩

def fresh : RecordedCache K V := ⟨Cache.new, []⟩

/-- Every entry is the last insertion of its key. -/
def Faithful (s : RecordedCache K V) : Prop :=
  ∀ k e, s.cache.entries.lookup k = some e → lastInsertion k s.history = some (e.value, e.createdAt)

variable {config : CacheConfig} {s s' : RecordedCache K V} {c' : Cache K V} {op : CacheOp K V}

theorem Faithful.kept (h : s.Faithful) (hk : Cache.Kept s.cache c') : Faithful ⟨c', s.history⟩ := by
  intro k e' he'
  obtain ⟨e, he, hv, hc⟩ := hk k e' he'
  rw [hv, hc]
  exact h k e he

theorem Faithful.insert {key first : K} {value : V} {now : Nat} (h : s.Faithful)
    (hi : Cache.InsertStep config s.cache key value first now c') :
    Faithful ⟨c', .inserted key value now :: s.history⟩ := by
  intro k e' he'
  rcases hi.lookup he' with ⟨rfl, hv, hc⟩ | ⟨hk, e, he, hv, hc⟩
  · rw [lastInsertion, if_pos rfl, hv, hc]
  · rw [lastInsertion, if_neg (Ne.symm hk), hv, hc]
    exact h k e he

theorem Faithful.step (h : s.Faithful) (hs : step config s op = some s') : s'.Faithful := by
  obtain ⟨⟨reply, c'⟩, ha, rfl⟩ := Option.map_eq_some_iff.mp hs
  cases op with
  | get key now => cases ha; exact h.kept (Cache.Kept.get config s.cache key now)
  | pruneExpired now => cases ha; exact h.kept (Cache.Kept.pruneExpired now)
  | insert key value first now =>
      obtain ⟨c₁, hi, hc₁⟩ := Option.map_eq_some_iff.mp ha
      cases hc₁
      exact h.insert (Cache.insert_step hi)
  | remove key =>
      cases ha
      intro k e he
      obtain ⟨hk, he⟩ := Cache.lookup_remove he
      rw [record, lastInsertion, if_neg (Ne.symm hk)]
      exact h k e he
  | clear =>
      cases ha
      intro k e he
      cases he
  | getOrInsertWith key asked value first now =>
      obtain ⟨⟨v, c₁⟩, hg, hc₁⟩ := Option.map_eq_some_iff.mp ha
      cases hc₁
      have hkept := Cache.Kept.get config s.cache key asked
      rcases Cache.getOrInsertWith_cases hg with hget | ⟨c₂, hget, rfl, hi⟩
      · simp only [record, hget] at hkept ⊢
        exact h.kept hkept
      · simp only [record, hget] at hkept ⊢
        exact (h.kept hkept).insert hi

/-- Whatever `get` returns at whatever time is the last insertion of the key, and not older than the TTL. -/
def AnswersCurrent (config : CacheConfig) (s : RecordedCache K V) : Prop :=
  ∀ key now value, (s.cache.get config key now).1 = some value →
    ∃ inserted, lastInsertion key s.history = some (value, inserted) ∧
      ∀ ttl, config.ttl = some ttl → now ≤ inserted + ttl

theorem Faithful.answersCurrent (h : s.Faithful) : s.AnswersCurrent config := by
  intro key now value hv
  have hg : Cache.GetStep config s.cache key now (s.cache.get config key now) := Cache.get_step
  generalize s.cache.get config key now = r at hg hv
  cases hg with
  | miss | expire => cases hv
  | hit hl ht =>
      rename_i entry
      cases hv
      refine ⟨entry.createdAt, h key entry hl, ?_⟩
      intro ttl httl
      have hfresh := ht ttl httl
      rw [CacheEntry.isExpired, decide_eq_false_iff_not] at hfresh
      omega

end RecordedCache

end NetworkSystem
