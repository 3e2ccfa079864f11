import NetworkSystem.Link.Link

/-!
# What a client reads

A `receive` of the client has the bytes that it has read in a buffer of its own. As long as no call ends with bytes
left in its buffer, what the client has taken off the connection is what it has returned and the buffer of the call
that reads.
-/

namespace NetworkSystem

open TaskPool

namespace ClientReceive

def buffer : ClientReceive → Bytes
  | .reading buf => buf
  | _ => []

def reads : ClientReceive → Bool
  | .reading _ => true
  | _ => false

/-- The message that the call has just returned. -/
def got : ClientReceive → List Message
  | .returned result => returnedBy (some result)
  | _ => []

end ClientReceive

namespace SharedClient

/-- What the buffer of the call holds after the event. -/
def leftover (s : SharedClient) : ClientReceive → ClientReceiveEvent → Bytes
  | .reading buf, .read read => (resumeLoop s.client.assemblyTimeout read buf s.incoming).buf
  | .reading buf, .drop => buf
  | _, _ => []

end SharedClient

variable {s s' : SharedClient} {stage stage' : ClientReceive} {e : ClientReceiveEvent}

/-! ## One call -/

/-- A call that has just locked the stream waits for its first read, or its time is already up. -/
theorem receiveLoop_start (assemblyTimeout elapsed : Nat) (incoming : Bytes) :
    receiveLoop assemblyTimeout elapsed [] [] incoming = ⟨none, [], incoming⟩ ∨
      ∃ err, receiveLoop assemblyTimeout elapsed [] [] incoming = ⟨some (.error err), [], incoming⟩ := by
  have hov : ¬ Oversized [] := by rintro ⟨h, _⟩; cases h
  by_cases h : assemblyTimeout ≤ elapsed
  · exact Or.inr ⟨_, receiveLoop_timeout h⟩
  · exact Or.inl (receiveLoop_more (Nat.not_le.mp h) hov rfl)

/-- What a step of `receive` does to what the client has taken and returned. -/
structure ClientReads (s : SharedClient) (stage : ClientReceive) (s' : SharedClient) (stage' : ClientReceive)
    (left : Bytes) : Prop where
  taken : s.taken = encodeAll s.received ++ stage.buffer → s'.taken = encodeAll s'.received ++ left
  received : s'.received = s.received ++ stage'.got
  valid : ∀ m ∈ stage'.got, messageCode.Valid m
  buffer : (StreamCall.receive stage').finished = false → left = stage'.buffer
  quiet : stage.reads = false → s'.taken = s.taken ∧ s'.received = s.received

theorem ClientReads.of_eq (ht : s'.taken = s.taken) (hr : s'.received = s.received) (hg : stage'.got = [])
    (hb : stage.buffer = stage'.buffer) : ClientReads s stage s' stage' stage.buffer where
  taken h := by rw [ht, hr, h]
  received := by rw [hr, hg, List.append_nil]
  valid := by simp [hg]
  buffer _ := hb
  quiet _ := ⟨ht, hr⟩

theorem SharedClient.afterLoop_reads {buf bytes : Bytes} {r : LoopEnd}
    (hr : buf ++ bytes = encodeAll (returnedBy r.result) ++ r.buf)
    (hvalid : ∀ m ∈ returnedBy r.result, messageCode.Valid m)
    (h : { s with taken := s.taken ++ bytes }.afterLoop r = (s', stage')) :
    ClientReads s (.reading buf) s' stage' r.buf := by
  obtain ⟨result, left, incoming⟩ := r
  cases result with
  | none =>
      cases h
      refine ⟨fun ht => ?_, (List.append_nil _).symm, by simp [ClientReceive.got], fun _ => rfl, nofun⟩
      show s.taken ++ bytes = encodeAll s.received ++ left
      rw [ht, List.append_assoc]
      exact congrArg _ hr
  | some result =>
      cases h
      refine ⟨fun ht => ?_, rfl, hvalid, (fun h => by cases h), nofun⟩
      show s.taken ++ bytes = encodeAll (s.received ++ returnedBy (some result)) ++ left
      have hmore : encodeAll (s.received ++ returnedBy (some result)) =
          encodeAll s.received ++ encodeAll (returnedBy (some result)) := PrefixCode.encodeAll_append _ _
      rw [ht, hmore, List.append_assoc, List.append_assoc]
      exact congrArg _ hr

theorem SharedClient.receiveStep_reads (h : s.receiveStep stage e = some (s', stage')) :
    ClientReads s stage s' stage' (s.leftover stage e) := by
  unfold receiveStep at h
  split at h
  · split at h <;> cases h <;> exact .of_eq rfl rfl rfl rfl
  · split at h
    · cases h
    · split at h
      · cases h; exact .of_eq rfl rfl rfl rfl
      · split at h
        · cases h; exact .of_eq rfl rfl rfl rfl
        · have hafter := Option.some.inj h
          rcases receiveLoop_start s.client.assemblyTimeout _ s.incoming with hloop | ⟨err, hloop⟩
          · rw [hloop] at hafter
            cases hafter
            exact .of_eq rfl rfl rfl rfl
          · rw [hloop] at hafter
            cases hafter
            exact .of_eq rfl (List.append_nil _) rfl rfl
  · cases h; exact .of_eq rfl rfl rfl rfl
  · rename_i buf read
    obtain ⟨hbytes, hvalid⟩ := resumeLoop_conserves s.client.assemblyTimeout read buf s.incoming
    have hincoming := resumeLoop_incoming s.client.assemblyTimeout read buf s.incoming
    refine afterLoop_reads ?_ hvalid (Option.some.inj h)
    -- the unread bytes are the same on both sides
    refine List.append_cancel_right
      (?_ : _ ++ (resumeLoop s.client.assemblyTimeout read buf s.incoming).incoming = _)
    rw [List.append_assoc, hincoming, List.append_assoc]
    exact hbytes
  · cases h
    exact ⟨id, (List.append_nil _).symm, by simp [ClientReceive.got], (fun h => by cases h), nofun⟩
  · cases h

/-- The stream is held for the call that reads. -/
theorem SharedClient.receiveStep_receiving (h : s.receiveStep stage e = some (s', stage'))
    (hle : stage.reads.toNat ≤ s.receiving.toNat) :
    s'.receiving.toNat + stage.reads.toNat = s.receiving.toNat + stage'.reads.toNat ∧
      (stage.reads = false → stage'.reads = true → s.receiving = false) := by
  have hafter : ∀ {s : SharedClient} {r : LoopEnd}, s.afterLoop r = (s', stage') →
      s'.receiving = stage'.reads := by
    intro s r hr
    obtain ⟨_ | result, buf, incoming⟩ := r <;> cases hr <;> rfl
  unfold receiveStep at h
  split at h
  · split at h <;> cases h <;> exact ⟨rfl, nofun⟩
  · split at h
    · cases h
    · rename_i hheld
      simp only [streamHeld, Bool.or_eq_true, not_or, Bool.not_eq_true] at hheld
      split at h
      · cases h; exact ⟨rfl, nofun⟩
      · split at h
        · cases h; exact ⟨rfl, nofun⟩
        · rw [hafter (Option.some.inj h), hheld.1]
          exact ⟨by simp [ClientReceive.reads], fun _ _ => rfl⟩
  · cases h; exact ⟨rfl, nofun⟩
  · have hreceiving : s.receiving = true := by
      cases hr : s.receiving
      · rw [hr] at hle; exact absurd hle (Nat.not_succ_le_zero 0)
      · rfl
    rw [hafter (Option.some.inj h), hreceiving]
    exact ⟨Nat.add_comm _ _, nofun⟩
  · have hreceiving : s.receiving = true := by
      cases hr : s.receiving
      · rw [hr] at hle; exact absurd hle (Nat.not_succ_le_zero 0)
      · rfl
    cases h
    rw [hreceiving]
    exact ⟨rfl, nofun⟩
  · cases h

/-! ## All calls of a client -/

namespace StreamCall

def buffer : StreamCall → Bytes
  | .receive stage => stage.buffer
  | .send _ => []

def reads : StreamCall → Bool
  | .receive stage => stage.reads
  | .send _ => false

end StreamCall

/-- What the client has taken is what it has returned, and the buffer of the call that reads. -/
structure Reading (p : Pool SharedClient StreamCall) : Prop where
  valid : ∀ m ∈ p.shared.received, messageCode.Valid m
  count : p.shared.receiving.toNat = p.total fun t => t.reads.toNat
  free : p.shared.receiving = false → p.shared.taken = encodeAll p.shared.received
  held : ∀ t ∈ p.tasks, t.reads = true → p.shared.taken = encodeAll p.shared.received ++ t.buffer

theorem Reading.connected (readTimeout : Nat) : Reading ⟨SharedClient.connected readTimeout, []⟩ where
  valid := by simp [SharedClient.connected]
  count := rfl
  free _ := rfl
  held := by simp

/-- A call that ends with nothing in its buffer leaves nothing behind. -/
theorem ClientReads.leaves_nothing (h : s.receiveStep stage e = some (s', stage'))
    (hC : s.ReadsWhole (.receive stage) (.receive e)) (hend : stage'.reads = false) :
    s.leftover stage e = [] := by
  cases stage with
  | reading buf =>
      cases e with
      | read read =>
          rcases hC with hnone | hbuf
          · have hafter := Option.some.inj h
            unfold SharedClient.afterLoop at hafter
            rw [hnone] at hafter
            cases hafter
            cases hend
          · exact hbuf
      | drop => exact hC
      | _ => rfl
  | _ => cases e <;> rfl

variable {p p' : Pool SharedClient StreamCall}

theorem Reading.send (h : Reading p) {i : Nat} {c c' : SendCall} {io : ClientWire}
    (ht : p.tasks[i]? = some (.send c)) : Reading ⟨{ p.shared with io := io }, p.tasks.set i (.send c')⟩ where
  valid := h.valid
  count := by
    have hset := sum_map_set_of_eq (fun t => (StreamCall.reads t).toNat) ht
      (rfl : (StreamCall.reads (.send c')).toNat = (StreamCall.reads (.send c)).toNat)
    rw [Pool.total, hset]
    exact h.count
  free := h.free
  held := by
    intro t ht hr
    rcases List.mem_or_eq_of_mem_set ht with ht | rfl
    · exact h.held t ht hr
    · cases hr

theorem Reading.receive (h : Reading p) {i : Nat} (ht : p.tasks[i]? = some (.receive stage))
    (hC : p.shared.ReadsWhole (.receive stage) (.receive e))
    (hs : p.shared.receiveStep stage e = some (s', stage')) :
    Reading ⟨s', p.tasks.set i (.receive stage')⟩ := by
  have hreads := SharedClient.receiveStep_reads hs
  have hle : stage.reads.toNat ≤ p.shared.receiving.toNat := by
    rw [h.count]
    exact le_total_of_mem (fun t => (StreamCall.reads t).toNat) (List.mem_of_getElem? ht)
  obtain ⟨hcount, hlocks⟩ := SharedClient.receiveStep_receiving hs hle
  have hvalid : ∀ m ∈ s'.received, messageCode.Valid m := by
    rw [hreads.received]
    intro m hm
    rcases List.mem_append.mp hm with hm | hm
    · exact h.valid m hm
    · exact hreads.valid m hm
  have htotal : s'.receiving.toNat =
      (⟨s', p.tasks.set i (.receive stage')⟩ : Pool SharedClient StreamCall).total fun t => t.reads.toNat := by
    have hset := sum_map_set (fun t => (StreamCall.reads t).toNat) (.receive stage') ht
    have hbefore := h.count
    simp only [Pool.total, StreamCall.reads] at hset hbefore ⊢
    omega
  have hbefore : stage.reads = true ∨ p.shared.receiving = false →
      p.shared.taken = encodeAll p.shared.received ++ stage.buffer := by
    rintro (hr | hr)
    · exact h.held _ (List.mem_of_getElem? ht) hr
    · cases hst : stage.reads with
      | true => rw [hr, hst] at hle; exact absurd hle (Nat.not_succ_le_zero 0)
      | false =>
          have hbuffer : stage.buffer = [] := by cases stage <;> first | rfl | cases hst
          rw [hbuffer, List.append_nil]
          exact h.free hr
  have hone : ∀ u ∈ p.tasks.set i (.receive stage'), u.reads = true → s'.receiving = true := by
    intro u hu hr
    have hle' := le_total_of_mem (p := ⟨s', p.tasks.set i (.receive stage')⟩)
      (fun t => (StreamCall.reads t).toNat) hu
    rw [← htotal, hr] at hle'
    cases hs' : s'.receiving with
    | true => rfl
    | false => rw [hs'] at hle'; exact absurd hle' (Nat.not_succ_le_zero 0)
  cases hst' : stage'.reads with
  | true =>
      have hnew : (p.tasks.set i (.receive stage'))[i]? = some (.receive stage') :=
        List.getElem?_set_self (List.getElem?_eq_some_iff.mp ht).1
      have htaken : s'.taken = encodeAll s'.received ++ stage'.buffer := by
        rw [← hreads.buffer (by cases stage' <;> first | rfl | cases hst')]
        apply hreads.taken
        cases hst : stage.reads with
        | true => exact hbefore (Or.inl hst)
        | false => exact hbefore (Or.inr (hlocks hst hst'))
      refine ⟨hvalid, htotal, fun hfree => ?_, fun u hu hr => ?_⟩
      · rw [hone _ (List.mem_of_getElem? hnew) hst'] at hfree
        cases hfree
      · -- another call that reads would hold the stream as well
        obtain ⟨j, hj⟩ := List.getElem?_of_mem hu
        rcases getElem?_set_cases hj with ⟨_, rfl⟩ | ⟨hij, _⟩
        · exact htaken
        · have hle' := add_le_total (p := ⟨s', p.tasks.set i (.receive stage')⟩)
            (fun t => (StreamCall.reads t).toNat) hnew hj (Ne.symm hij)
          have hmost := Bool.toNat_le s'.receiving
          rw [← htotal, hr] at hle'
          simp only [StreamCall.reads, hst', Bool.toNat_true] at hle'
          omega
  | false =>
      cases hst : stage.reads with
      | true =>
          have hnone : s'.receiving = false := by
            have hmost := Bool.toNat_le p.shared.receiving
            rw [hst, hst'] at hcount
            simp only [Bool.toNat_true, Bool.toNat_false] at hcount
            exact Bool.toNat_eq_zero.mp (by omega)
          refine ⟨hvalid, htotal, fun _ => ?_, fun u hu hr => ?_⟩
          · have htaken := hreads.taken (hbefore (Or.inl hst))
            rwa [ClientReads.leaves_nothing hs hC hst', List.append_nil] at htaken
          · rw [hone u hu hr] at hnone
            cases hnone
      | false =>
          obtain ⟨htaken, hreceived⟩ := hreads.quiet hst
          have hsame : s'.receiving = p.shared.receiving := by
            rw [hst, hst'] at hcount
            cases hs' : s'.receiving <;> cases hp : p.shared.receiving <;> rw [hs', hp] at hcount <;>
              first | rfl | exact absurd hcount (by decide)
          refine ⟨hvalid, htotal, fun hfree => ?_, fun u hu hr => ?_⟩
          · rw [htaken, hreceived]
            exact h.free (hsame.symm.trans hfree)
          · rw [htaken, hreceived]
            rcases List.mem_or_eq_of_mem_set hu with hu | rfl
            · exact h.held u hu hr
            · rw [StreamCall.reads, hst'] at hr
              cases hr

theorem Reading.clientStep (h : Reading p) {e : ClientEvent} (hC : ClientReadsWhole p e)
    (hs : NetworkSystem.clientStep p e = some p') : Reading p' := by
  cases e with
  | disconnect =>
      obtain ⟨_, hp⟩ := Option.ite_none_right_eq_some.mp hs
      cases hp
      exact ⟨h.valid, h.count, h.free, h.held⟩
  | call e =>
      cases e with
      | spawn k =>
          cases hs
          have hnew : (streamCalls.start k).reads = false := by cases k <;> rfl
          refine ⟨h.valid, ?_, h.free, fun t ht hr => ?_⟩
          · rw [h.count]
            simp [Pool.total, hnew]
          · rcases List.mem_append.mp ht with ht | ht
            · exact h.held t ht hr
            · rw [List.mem_singleton.mp ht, hnew] at hr
              cases hr
      | act i e =>
          obtain ⟨t, s', t', ht, ha, rfl⟩ := Program.step_act.mp hs
          rcases StreamCall.act_cases ha with ⟨c, c', e', io, rfl, rfl, rfl, rfl, _⟩ | ⟨_, _, _, rfl, rfl, rfl, hr⟩
          · exact h.send ht
          · exact h.receive ht (hC _ (by rw [ht]; rfl)) hr

/-- What the client has returned is at the front of what has arrived. -/
theorem Reading.encodeAll_prefix (h : Reading p) : encodeAll p.shared.received <+: p.shared.arrived := by
  refine List.IsPrefix.trans ?_ (List.prefix_append _ _)
  cases hr : p.shared.receiving with
  | false => rw [h.free hr]
  | true =>
      have hpos : 0 < p.total fun t => (StreamCall.reads t).toNat := by
        rw [← h.count, hr]
        exact Nat.one_pos
      obtain ⟨t, ht, hpos⟩ := exists_of_total_pos _ hpos
      have hreads : t.reads = true := by
        cases ht : t.reads with
        | true => rfl
        | false => rw [ht] at hpos; exact absurd hpos (Nat.lt_irrefl 0)
      rw [h.held t ht hreads]
      exact List.prefix_append _ _

end NetworkSystem
