/-
  The accounts of the plugin.  While the plugin is enabled, what it has counted is what it has
  dropped, what it has sent and what still waits in the ring (`Live`), whatever calls it gets.

  Steps between two frames only let counters grow (`Advance`).  A step that stops early leaves
  a disabled plugin, about which nothing more needs to be known: it sends no frame again.
-/
import SmartHome.Mqtt.Native.Wire

namespace SmartHome.Mqtt.Native

open Verif

/-! ## Growing counters -/

/-- The counters of `q` have grown from those of `p`: what was counted was dropped. -/
structure Advance (p q : Plugin) : Prop where
  disabled : p.disabled = true → q.disabled = true
  source : q.source = p.source
  started : q.started = p.started
  frameSeq : q.frameSeq = p.frameSeq
  lastAttempt : q.lastAttempt = p.lastAttempt
  pending : q.pending = p.pending
  final : q.final = p.final
  closeBefore : q.closeBefore = p.closeBefore
  socketOpen : q.socketOpen = p.socketOpen
  counts : ∀ k, q.total k + p.dropped k = p.total k + q.dropped k
  dropped : ∀ k, p.dropped k ≤ q.dropped k
  eventSeq : q.eventSeq + ∑ k, p.total k = p.eventSeq + ∑ k, q.total k
  clockFaults : p.clockFaults ≤ q.clockFaults
  sendFailures : p.sendFailures ≤ q.sendFailures
  eventRoom : p.eventSeq ≤ uint64Max → q.eventSeq ≤ uint64Max
  faultRoom : p.clockFaults ≤ uint64Max → q.clockFaults ≤ uint64Max
  failureRoom : p.sendFailures ≤ uint64Max → q.sendFailures ≤ uint64Max

namespace Advance
variable {p q r : Plugin}

theorem refl (p : Plugin) : Advance p p := by
  constructor <;> simp

theorem trans (h : Advance p q) (h' : Advance q r) : Advance p r where
  disabled hd := h'.disabled (h.disabled hd)
  source := h'.source.trans h.source
  started := h'.started.trans h.started
  frameSeq := h'.frameSeq.trans h.frameSeq
  lastAttempt := h'.lastAttempt.trans h.lastAttempt
  pending := h'.pending.trans h.pending
  final := h'.final.trans h.final
  closeBefore := h'.closeBefore.trans h.closeBefore
  socketOpen := h'.socketOpen.trans h.socketOpen
  counts k := by have := h.counts k; have := h'.counts k; omega
  dropped k := (h.dropped k).trans (h'.dropped k)
  eventSeq := by have := h.eventSeq; have := h'.eventSeq; omega
  clockFaults := h.clockFaults.trans h'.clockFaults
  sendFailures := h.sendFailures.trans h'.sendFailures
  eventRoom hw := h'.eventRoom (h.eventRoom hw)
  faultRoom hw := h'.faultRoom (h.faultRoom hw)
  failureRoom hw := h'.failureRoom (h.failureRoom hw)

theorem total_le (h : Advance p q) (k : Kind) : p.total k ≤ q.total k := by
  have := h.counts k; have := h.dropped k
  omega

theorem eventSeq_le (h : Advance p q) : p.eventSeq ≤ q.eventSeq := by
  have h1 := h.eventSeq
  have h2 : ∑ k, p.total k ≤ ∑ k, q.total k := Finset.sum_le_sum fun k _ => h.total_le k
  omega

end Advance

/-- A stop of the computation disables the plugin. -/
def Disabling (x : Except Plugin Plugin) : Prop := ∀ q, x = .error q → q.disabled = true

theorem Disabling.bind {x : Except Plugin Plugin} {f : Plugin → Except Plugin Plugin}
    (hx : Disabling x) (hf : ∀ p, Disabling (f p)) : Disabling (x >>= f) := by
  intro q h
  rcases bind_error.1 h with h | ⟨p, -, h⟩
  · exact hx q h
  · exact hf p q h

namespace Plugin
variable {p q : Plugin}

/-- What `add` has done when it succeeds. -/
theorem add_ok {value amount : ℕ} {store : ℕ → Plugin} :
    p.add value amount store = .ok q ↔ amount ≤ uint64Max - value ∧ store (value + amount) = q := by
  unfold add
  split_ifs with h
  · simp only [false_iff]; omega
  · simp only [Except.ok.injEq, not_lt.1 h, true_and]

theorem disabling_add {value amount : ℕ} {store : ℕ → Plugin} :
    Disabling (p.add value amount store) := by
  intro q h
  unfold add at h
  split_ifs at h
  cases h; rfl

theorem sum_update (f : Kind → ℕ) (k : Kind) (n : ℕ) :
    ∑ j, Function.update f k (f k + n) j = (∑ j, f j) + n := by
  simp only [sum_kinds, kinds, List.map_cons, List.map_nil, List.sum_cons, List.sum_nil]
  cases k <;> simp [Function.update] <;> omega

/-- A kind counted and dropped `n` times. -/
theorem takeDrops_ok {k : Kind} {n : ℕ} (h : p.takeDrops k n = .ok q) : Advance p q := by
  simp only [takeDrops, bind_ok, addEventSeq, addTotal, addDropped, add_ok] at h
  obtain ⟨_, ⟨hev, rfl⟩, _, ⟨-, rfl⟩, -, rfl⟩ := h
  constructor <;> try simp
  · intro j
    by_cases hj : j = k
    · subst hj; simp; omega
    · simp [hj]
  · intro j
    by_cases hj : j = k
    · subst hj; simp
    · simp [hj]
  · rw [sum_update]; omega
  · omega

theorem disabling_takeDrops (k : Kind) (n : ℕ) : Disabling (p.takeDrops k n) :=
  disabling_add.bind fun _ => disabling_add.bind fun _ => disabling_add

theorem drainDrop_ok {k : Kind} (h : p.drainDrop k = .ok q) : Advance p q := by
  rw [drainDrop_eq] at h
  refine Advance.trans ?_ (takeDrops_ok h)
  constructor <;> simp

theorem disabling_drainDrop (k : Kind) : Disabling (p.drainDrop k) := disabling_takeDrops k _

theorem drainDrops_ok (h : p.drainDrops = .ok q) : Advance p q := by
  have hloop : ∀ (ks : List Kind) {p q : Plugin}, ks.foldlM drainDrop p = .ok q → Advance p q := by
    intro ks
    induction ks with
    | nil => rintro p q ⟨⟩; exact .refl p
    | cons k ks ih =>
      intro p q h
      rw [List.foldlM_cons, bind_ok] at h
      obtain ⟨p1, h1, h⟩ := h
      exact (drainDrop_ok h1).trans (ih h)
  simp only [drainDrops, bind_ok, addClockFaults, add_ok] at h
  obtain ⟨p1, h1, hroom, rfl⟩ := h
  refine (hloop kinds h1).trans ?_
  constructor <;> simp
  omega

theorem disabling_drainDrops : Disabling p.drainDrops := by
  have hloop : ∀ (ks : List Kind) {p : Plugin}, Disabling (ks.foldlM drainDrop p) := by
    intro ks
    induction ks with
    | nil => rintro p q ⟨⟩
    | cons k ks ih =>
      intro p
      rw [List.foldlM_cons]
      exact (disabling_drainDrop k).bind fun _ => ih
  exact (hloop kinds).bind fun _ => disabling_add

theorem addClockFaults_ok {n : ℕ} (h : p.addClockFaults n = .ok q) :
    Advance p q ∧ p.clockFaults + n ≤ q.clockFaults := by
  simp only [addClockFaults, add_ok] at h
  obtain ⟨hroom, rfl⟩ := h
  refine ⟨?_, le_rfl⟩
  constructor <;> simp
  omega

theorem addSendFailures_ok {n : ℕ} (h : p.addSendFailures n = .ok q) : Advance p q := by
  simp only [addSendFailures, add_ok] at h
  obtain ⟨hroom, rfl⟩ := h
  constructor <;> simp
  omega

/-! ## Callbacks that find the lock taken -/

theorem gate_error {c : Call} (h : p.gate c = .error q) : q = p ∨ q = p.disable := by
  unfold gate at h
  by_cases hgate : p.disabled = true ∨ p.active = false
  · rw [if_pos hgate] at h
    cases h; exact .inl rfl
  · rw [if_neg hgate] at h
    cases he : c.event with
    | observed k => rw [he] at h; cases h
    | other => rw [he] at h; cases h; exact .inl rfl
    | tick =>
      rw [he] at h
      by_cases ha : c.allowed = true
      · simp [ha] at h
      · simp only [ha] at h
        cases h; exact .inr rfl

theorem gate_ok {c : Call} {kind : Option Kind} (h : p.gate c = .ok kind) :
    p.disabled = false ∧ p.active = true := by
  unfold gate at h
  by_cases hgate : p.disabled = true ∨ p.active = false
  · rw [if_pos hgate] at h
    cases h
  · simpa using hgate

/-- A callback that finds the lock taken only counts itself as pending. -/
theorem advance_contended (p : Plugin) (c : Call) : Advance p (p.contended c) := by
  unfold contended
  cases h : p.gate c with
  | error q =>
    rcases gate_error h with rfl | rfl
    · exact .refl _
    · constructor <;> simp [disable]
  | ok kind =>
    cases kind <;> simp only [Option.elim] <;> split_ifs
    · constructor <;> simp +contextual [incrementFaults]
    · exact .refl _
    · constructor <;> simp +contextual [incrementFaults, incrementDrop]
    · constructor <;> simp +contextual [incrementDrop]

theorem advance_contendeds (cs : List Call) (p : Plugin) : Advance p (cs.foldl contended p) := by
  induction cs generalizing p with
  | nil => exact .refl p
  | cons c cs ih => exact (advance_contended p c).trans (ih _)

/-- How many rows of a kind wait in the ring. -/
def rows (p : Plugin) (k : Kind) : ℕ := p.pending.countP fun r => r.kind = k

/-- How many rows in the ring have no stamp. -/
def unknown (p : Plugin) : ℕ := p.pending.countP fun r => r.atNs.isNone

end Plugin

/-! ## Live plugins -/

/-- What has happened to the counters since the frame written from `a` was sent. -/
structure Since (a p : Plugin) : Prop where
  source : p.source = a.source
  started : p.started = a.started
  opened : a.final = false
  frameSeq : a.frameSeq < p.frameSeq
  eventSeq : a.eventSeq ≤ p.eventSeq
  total : ∀ k, a.total k ≤ p.total k
  dropped : ∀ k, a.dropped k ≤ p.dropped k
  faults : a.clockFaults + p.unknown ≤ p.clockFaults
  failures : a.sendFailures ≤ p.sendFailures
  attempt : a.lastAttempt ≤ p.lastAttempt
  fresh : ∀ r ∈ p.pending, a.eventSeq < r.seq

/-- An enabled plugin after the frames in `sent`, at a time when the clock shows `clock`. -/
structure Live (sent : List Sent) (clock : ℕ) (p : Plugin) : Prop where
  sound : p.Sound
  frames : p.frameSeq = sent.length
  unknown : p.unknown ≤ p.clockFaults
  startFault : p.started.isSome ∨ 0 < p.clockFaults
  started : ∀ b ∈ p.started, b ≤ clock
  stamps : ∀ r ∈ p.pending, ∀ t ∈ r.atNs, t ≤ clock ∧ ∀ b ∈ p.started, b ≤ t
  attempt : p.lastAttempt ≤ clock
  close : p.final = true → ∀ c ∈ p.closeBefore, (∀ a ∈ sent, a.plugin.lastAttempt ≤ c) ∧
    c ≤ clock ∧ ∀ b ∈ p.started, b ≤ c
  since : ∀ a ∈ sent, Since a.plugin p
  counts : ∀ k, p.total k = p.dropped k + (sent.map fun a => a.plugin.rows k).sum + p.rows k

/-- A frame that was sent after those in `sent`. -/
structure Recorded (sent : List Sent) (a : Sent) : Prop where
  live : Live sent a.plugin.lastAttempt a.plugin
  stamped : a.plugin.Stamped a.coveredBeforeNs a.plugin.lastAttempt
  after : ∀ c ∈ a.coveredBeforeNs, ∀ b ∈ sent, b.plugin.lastAttempt ≤ c
  raw : a.raw = ascii (a.plugin.json a.coveredBeforeNs a.plugin.lastAttempt).render

/-- The log of a run. -/
inductive Logged : List Sent → Prop
  | nil : Logged []
  | snoc {sent : List Sent} {a : Sent} : Logged sent → Recorded sent a → Logged (sent ++ [a])

section
variable {sent : List Sent} {clock : ℕ} {p q : Plugin}

theorem Since.advance {a : Plugin} (h : Since a p) (hq : Advance p q) : Since a q where
  source := hq.source.trans h.source
  started := hq.started.trans h.started
  opened := h.opened
  frameSeq := hq.frameSeq ▸ h.frameSeq
  eventSeq := h.eventSeq.trans hq.eventSeq_le
  total k := (h.total k).trans (hq.total_le k)
  dropped k := (h.dropped k).trans (hq.dropped k)
  faults := by
    have := h.faults
    rw [Plugin.unknown, hq.pending]
    exact this.trans hq.clockFaults
  failures := h.failures.trans hq.sendFailures
  attempt := hq.lastAttempt ▸ h.attempt
  fresh := hq.pending ▸ h.fresh

theorem Live.advance (h : Live sent clock p) (hq : Advance p q) : Live sent clock q where
  sound := by
    have hs := h.sound
    refine ⟨?_, fun k => ?_, hq.pending ▸ hs.rows, hq.pending ▸ hs.increasing, ?_,
      hq.eventRoom hs.eventSeq, hq.frameSeq ▸ hs.frameSeq, hq.faultRoom hs.clockFaults,
      hq.failureRoom hs.sendFailures, hq.started ▸ hs.started, hq.pending ▸ hs.stamps⟩
    · have := hq.eventSeq; have := hs.sum
      omega
    · have := hq.counts k; have := hs.dropped k
      omega
    · rw [hq.pending]
      exact fun r hr => ⟨(hs.bounded r hr).1, (hs.bounded r hr).2.trans hq.eventSeq_le⟩
  frames := hq.frameSeq.trans h.frames
  unknown := by
    rw [Plugin.unknown, hq.pending]
    exact h.unknown.trans hq.clockFaults
  startFault := by
    rw [hq.started]
    exact h.startFault.imp_right fun hp => hp.trans_le hq.clockFaults
  started := hq.started ▸ h.started
  stamps := by rw [hq.pending, hq.started]; exact h.stamps
  attempt := hq.lastAttempt ▸ h.attempt
  close := by rw [hq.final, hq.closeBefore, hq.started]; exact h.close
  since a ha := (h.since a ha).advance hq
  counts k := by
    have h1 := h.counts k; have h2 := hq.counts k
    rw [Plugin.rows] at h1 ⊢
    rw [hq.pending]
    omega

/-- Time passes. -/
theorem Live.later {clock' : ℕ} (h : Live sent clock p) (hle : clock ≤ clock') :
    Live sent clock' p :=
  { h with
    started := fun b hb => (h.started b hb).trans hle
    stamps := fun r hr t ht => ⟨(h.stamps r hr t ht).1.trans hle, (h.stamps r hr t ht).2⟩
    attempt := h.attempt.trans hle
    close := fun hf c hc => ⟨(h.close hf c hc).1, (h.close hf c hc).2.1.trans hle,
      (h.close hf c hc).2.2⟩ }

theorem le_getD {o : Option ℕ} (h : ∀ t ∈ o, clock ≤ t) : clock ≤ o.getD clock := by
  cases o with
  | none => exact le_rfl
  | some t => exact h t rfl

/-! ## The holder of the lock -/

/-- The row of an event goes into the ring. -/
theorem Live.push (h : Live sent clock p) (hq : Advance p q) {k : Kind} {occurred : Option ℕ}
    {clock' : ℕ} (hle : clock ≤ clock')
    (hfault : p.clockFaults + (if occurred.isNone then 1 else 0) ≤ q.clockFaults)
    (hclock : ∀ t ∈ occurred, t ≤ clock' ∧ t ≤ uint64Max ∧ ∀ b ∈ q.started, b ≤ t)
    (hroom : q.eventSeq < uint64Max) (hcap : q.pending.length < capacity) :
    Live sent clock' { q with
      eventSeq := q.eventSeq + 1
      total := Function.update q.total k (q.total k + 1)
      pending := q.pending ++ [⟨q.eventSeq + 1, k, occurred⟩] } := by
  have hl := h.advance hq
  have hs := hl.sound
  have hunknown : (q.pending ++ [(⟨q.eventSeq + 1, k, occurred⟩ : EventRow)]).countP
      (fun r => r.atNs.isNone) = p.unknown + if occurred.isNone then 1 else 0 := by
    rw [List.countP_append, hq.pending, Plugin.unknown, List.countP_singleton]
  have hstart : ∀ b ∈ q.started, b ≤ clock := hl.started
  have hrows : ∀ r ∈ q.pending ++ [(⟨q.eventSeq + 1, k, occurred⟩ : EventRow)],
      r ∈ q.pending ∨ r = ⟨q.eventSeq + 1, k, occurred⟩ := by
    intro r hr
    simpa using hr
  refine ⟨?_, hl.frames, ?_, hl.startFault, fun b hb => (hstart b hb).trans hle, ?_,
    hl.attempt.trans hle, fun hf c hc => ?_, fun a ha => ?_, fun j => ?_⟩
  · refine ⟨?_, fun j => ?_, ?_, ?_, ?_, hroom, hs.frameSeq, hs.clockFaults, hs.sendFailures,
      hs.started, ?_⟩
    · rw [Plugin.sum_update, hs.sum]
    · have := hs.dropped j
      by_cases hj : j = k
      · subst hj; simp only [Function.update_self]; omega
      · simpa [hj] using this
    · simp only [List.length_append, List.length_singleton]; omega
    · rw [List.map_append, List.map_singleton, List.pairwise_append]
      refine ⟨hs.increasing, List.pairwise_singleton _ _, ?_⟩
      intro n hn m hm
      obtain ⟨r, hr, rfl⟩ := List.mem_map.1 hn
      rw [List.mem_singleton] at hm
      subst hm
      exact Nat.lt_succ_of_le (hs.bounded r hr).2
    · intro r hr
      rcases hrows r hr with hr | rfl
      · exact ⟨(hs.bounded r hr).1, (hs.bounded r hr).2.trans (Nat.le_succ _)⟩
      · exact ⟨Nat.succ_pos _, le_rfl⟩
    · intro r hr t ht
      rcases hrows r hr with hr | rfl
      · exact hs.stamps r hr t ht
      · exact (hclock t ht).2.1
  · rw [Plugin.unknown, hunknown]
    have := h.unknown
    exact (Nat.add_le_add_right this _).trans hfault
  · intro r hr t ht
    rcases hrows r hr with hr | rfl
    · exact ⟨((hl.stamps r hr t ht).1).trans hle, (hl.stamps r hr t ht).2⟩
    · exact ⟨(hclock t ht).1, (hclock t ht).2.2⟩
  · obtain ⟨h1, h2, h3⟩ := hl.close hf c hc
    exact ⟨h1, h2.trans hle, h3⟩
  · have hsq := hl.since a ha
    refine ⟨hsq.source, hsq.started, hsq.opened, hsq.frameSeq,
      hsq.eventSeq.trans (Nat.le_succ _), fun j => ?_, hsq.dropped, ?_,
      hsq.failures, hsq.attempt, ?_⟩
    · refine (hsq.total j).trans ?_
      by_cases hj : j = k
      · subst hj; simp
      · simp [hj]
    · rw [Plugin.unknown, hunknown]
      have := (h.since a ha).faults
      dsimp only
      omega
    · intro r hr
      rcases hrows r hr with hr | rfl
      · exact hsq.fresh r hr
      · exact Nat.lt_succ_of_le hsq.eventSeq
  · have hj := hl.counts j
    rw [Plugin.rows] at hj ⊢
    rw [List.countP_append, List.countP_singleton]
    by_cases hjk : j = k
    · subst hjk; simp only [Function.update_self, decide_true, if_true]; omega
    · simp only [Function.update_of_ne hjk, decide_eq_true_eq, Ne.symm hjk, if_false]; omega

theorem countFault_ok {p q : Plugin} {o : Option ℕ} (h : p.countFault o = .ok q) :
    Advance p q ∧ p.clockFaults + (if o.isNone then 1 else 0) ≤ q.clockFaults := by
  cases o with
  | none => exact Plugin.addClockFaults_ok h
  | some t =>
    cases h
    exact ⟨.refl p, le_rfl⟩

/-- The holder of the lock counts its own event. -/
theorem Live.countEvent (h : Live sent clock p) {kind : Option Kind} {occurred : Option ℕ}
    {clock' : ℕ} (hle : clock ≤ clock')
    (hclock : ∀ t ∈ occurred, t ≤ clock' ∧ t ≤ uint64Max ∧ ∀ b ∈ p.started, b ≤ t)
    (hq : p.countEvent kind occurred = .ok q) : Live sent clock' q ∧ q.final = p.final := by
  simp only [Plugin.countEvent, bind_ok] at hq
  obtain ⟨p2, h2, hq⟩ := hq
  obtain ⟨hadv, hfault⟩ := countFault_ok h2
  cases kind with
  | none =>
    cases hq
    exact ⟨(h.advance hadv).later hle, hadv.final⟩
  | some k =>
    simp only [bind_ok, Plugin.addEventSeq, Plugin.addTotal, Plugin.add_ok] at hq
    obtain ⟨_, ⟨hroom, rfl⟩, _, ⟨-, rfl⟩, hq⟩ := hq
    have hroom : p2.eventSeq < uint64Max := by
      have := (h.advance hadv).sound.eventSeq
      omega
    by_cases hcap : p2.pending.length < capacity
    · rw [if_pos hcap] at hq
      cases hq
      exact ⟨h.push hadv hle hfault (hadv.started ▸ hclock) hroom hcap, hadv.final⟩
    · rw [if_neg hcap, Plugin.addDropped, Plugin.add_ok] at hq
      obtain ⟨-, rfl⟩ := hq
      refine ⟨(h.advance (hadv.trans ?_)).later hle, hadv.final⟩
      constructor <;> try simp
      · intro j
        by_cases hj : j = k
        · subst hj; simp; omega
        · simp [hj]
      · intro j
        by_cases hj : j = k
        · subst hj; simp
        · simp [hj]
      · rw [Plugin.sum_update]; omega
      · omega

/-- What the holder of the lock counts. -/
theorem Live.collect (h : Live sent clock p) {kind : Option Kind} {occurred : Option ℕ}
    (hclock : ∀ t ∈ occurred, clock ≤ t ∧ t ≤ uint64Max) (hq : p.collect kind occurred = .ok q) :
    Live sent (occurred.getD clock) q ∧ q.final = p.final := by
  rw [Plugin.collect_eq, bind_ok] at hq
  obtain ⟨p1, h1, hq⟩ := hq
  have hadv := Plugin.drainDrops_ok h1
  have hlive := h.advance hadv
  have hle : clock ≤ occurred.getD clock := le_getD fun t ht => (hclock t ht).1
  have hstamp : ∀ t ∈ occurred, t ≤ occurred.getD clock ∧ t ≤ uint64Max ∧
      ∀ b ∈ p1.started, b ≤ t := by
    intro t ht
    obtain rfl : occurred = some t := ht
    exact ⟨le_rfl, (hclock t rfl).2, fun b hb => (hlive.started b hb).trans (hclock t rfl).1⟩
  obtain ⟨h2, h3⟩ := hlive.countEvent hle hstamp hq
  exact ⟨h2, h3.trans hadv.final⟩

theorem disabling_countFault {p : Plugin} {o : Option ℕ} : Disabling (p.countFault o) := by
  unfold Plugin.countFault
  split_ifs
  · exact Plugin.disabling_add
  · rintro q ⟨⟩

theorem disabling_countEvent (p : Plugin) (kind : Option Kind) (occurred : Option ℕ) :
    Disabling (p.countEvent kind occurred) := by
  refine disabling_countFault.bind fun p => ?_
  cases kind with
  | none => rintro q ⟨⟩
  | some k =>
    refine Plugin.disabling_add.bind fun _ => Plugin.disabling_add.bind fun _ => ?_
    split_ifs
    · rintro q ⟨⟩
    · exact Plugin.disabling_add

theorem disabling_collect (p : Plugin) (kind : Option Kind) (occurred : Option ℕ) :
    Disabling (p.collect kind occurred) := by
  rw [Plugin.collect_eq]
  exact Plugin.disabling_drainDrops.bind fun p => disabling_countEvent p kind occurred

/-! ## Sending a frame -/

/-- The state and the log after a frame has been sent. -/
theorem Live.emitted {b : Sent} (h : Recorded sent b) (hopen : b.plugin.final = false) :
    Live (sent ++ [b]) b.plugin.lastAttempt
      { b.plugin with frameSeq := b.plugin.frameSeq + 1, pending := [] } := by
  have hl := h.live
  have hs := hl.sound
  refine ⟨⟨hs.sum, hs.dropped, Nat.zero_le _, .nil, nofun, hs.eventSeq, h.stamped.room,
    hs.clockFaults, hs.sendFailures, hs.started, nofun⟩, ?_, Nat.zero_le _, hl.startFault,
    hl.started, nofun, hl.attempt, ?_, fun a ha => ?_, fun k => ?_⟩
  · simp [hl.frames]
  · intro hf
    exact absurd (hopen.symm.trans hf) (by decide)
  · rcases List.mem_append.1 ha with ha | ha
    · have := hl.since a ha
      exact ⟨this.source, this.started, this.opened, this.frameSeq.trans (Nat.lt_succ_self _),
        this.eventSeq, this.total, this.dropped,
        (Nat.add_le_add_left (Nat.zero_le _) _).trans this.faults, this.failures, this.attempt, nofun⟩
    · rw [List.mem_singleton] at ha
      subst ha
      exact ⟨rfl, rfl, hopen, Nat.lt_succ_self _, le_rfl, fun _ => le_rfl, fun _ => le_rfl, le_rfl,
        le_rfl, le_rfl, nofun⟩
  · have := hl.counts k
    simp only [List.map_append, List.map_singleton, List.sum_append, List.sum_singleton,
      Plugin.rows, List.countP_nil] at this ⊢
    omega

/-- What an attempt to send may leave behind. -/
def Attempted (sent : List Sent) (clock : ℕ) (opened : Prop) (r : Plugin × Option Sent) : Prop :=
  (∀ b ∈ r.2, Recorded sent b) ∧
    (opened → r.1.disabled = true ∨ Live (sent ++ r.2.toList) clock r.1 ∧ r.1.final = false)

theorem attempted_disabled {opened : Prop} (h : p.disabled = true) :
    Attempted sent clock opened (p, none) := ⟨nofun, fun _ => .inl h⟩

theorem attempted_none (h : Live sent clock p) : Attempted sent clock (p.final = false) (p, none) :=
  ⟨nofun, fun hf => .inr ⟨by simpa using h, hf⟩⟩

/-- A step without a frame: the plugin is disabled, or its counters have grown. -/
theorem attempted_settle {x : Except Plugin Plugin} (h : Live sent clock p) (hx : Disabling x)
    (hok : ∀ q, x = .ok q → Advance p q) :
    Attempted sent clock (p.final = false) (settle x, none) := by
  cases x with
  | error q => exact attempted_disabled (hx q rfl)
  | ok q =>
    have hq := hok q rfl
    have := attempted_none (h.advance hq)
    rwa [hq.final] at this

/-- The stamp lies between the start and the frame, and after the frames before it. -/
theorem Live.covered (h : Live sent clock p) {callbacks callers now c : ℕ} (hclock : clock ≤ now)
    (hc : c ∈ p.covered callbacks callers now) :
    c ≤ now ∧ (∀ b ∈ p.started, b ≤ c) ∧ ∀ a ∈ sent, a.plugin.lastAttempt ≤ c := by
  unfold Plugin.covered at hc
  split_ifs at hc with hquiet hf
  · obtain ⟨hclose, hle⟩ := Option.filter_eq_some_iff.1 hc
    obtain ⟨h1, -, h3⟩ := h.close hf c hclose
    exact ⟨by simpa using hle, h3, h1⟩
  · cases hc
    exact ⟨le_rfl, fun b hb => (h.started b hb).trans hclock,
      fun a ha => ((h.since a ha).attempt.trans h.attempt).trans hclock⟩
  · cases hc

/-- An attempt to send at the time `now`. -/
theorem Live.attempted (h : Live sent clock p) {now : ℕ} (hclock : clock ≤ now) :
    Live sent now { p with lastAttempt := now } :=
  { h.later hclock with
    sound := { h.sound with }
    attempt := le_rfl
    since := fun a ha =>
      { h.since a ha with attempt := ((h.since a ha).attempt.trans h.attempt).trans hclock } }

/-- The frame that is in the buffer then. -/
theorem Live.recorded (h : Live sent clock p) {covered : Option ℕ} {now : ℕ} (hclock : clock ≤ now)
    (hnow : now ≤ uint64Max) (hroom : p.frameSeq ≠ uint64Max) (hcov : ∀ c ∈ covered,
      c ≤ now ∧ (∀ b ∈ p.started, b ≤ c) ∧ ∀ a ∈ sent, a.plugin.lastAttempt ≤ c) :
    ∃ buffer, ({ p with lastAttempt := now } : Plugin).text covered now = some buffer ∧
      Recorded sent ⟨{ p with lastAttempt := now }, covered, ascii buffer⟩ := by
  have hl := h.attempted hclock
  have hstamped : ({ p with lastAttempt := now } : Plugin).Stamped covered now :=
    ⟨lt_of_le_of_ne h.sound.frameSeq hroom, hnow, fun c hc => ⟨(hcov c hc).1, (hcov c hc).2.1⟩⟩
  exact ⟨_, Plugin.text_eq hl.sound hstamped, hl, hstamped, fun c hc => (hcov c hc).2.2, rfl⟩

/-- What `transmit` does with a live plugin. -/
theorem Live.transmit (h : Live sent clock p) {covered : Option ℕ} {now : ℕ} {outcome : Outcome}
    (hclock : clock ≤ now) (hnow : now ≤ uint64Max) (hcov : ∀ c ∈ covered,
      c ≤ now ∧ (∀ b ∈ p.started, b ≤ c) ∧ ∀ a ∈ sent, a.plugin.lastAttempt ≤ c) :
    Attempted sent now (p.final = false) (p.transmit covered now outcome) := by
  unfold Plugin.transmit
  by_cases hroom : p.frameSeq = uint64Max
  · simp only [hroom, if_true]
    exact attempted_disabled rfl
  obtain ⟨buffer, htext, hrec⟩ := h.recorded hclock hnow hroom hcov
  simp only [if_neg hroom, htext]
  by_cases hd : p.disabled = true
  · rw [if_pos hd]
    exact attempted_disabled hd
  rw [if_neg hd]
  cases outcome with
  | short => exact attempted_disabled rfl
  | failed =>
    exact attempted_settle (p := { p with lastAttempt := now }) hrec.live Plugin.disabling_add
      fun q hq => Plugin.addSendFailures_ok hq
  | sent =>
    refine ⟨?_, fun hf => .inr ⟨Live.emitted hrec hf, hf⟩⟩
    rintro b ⟨⟩
    exact hrec

theorem disabling_emit (hd : p.disabled = true) (force : Bool) (n : ℕ) (a : Attempt) :
    p.emitFrame force n a = (p, none) := by
  rw [Plugin.emitFrame, if_pos (.inl hd)]

/-- What `emit_frame` does with a live plugin. -/
theorem Live.emitFrame (h : Live sent clock p) {a : Attempt} (force : Bool) (n : ℕ)
    (hclock : ∀ now ∈ clockNs a.clock, clock ≤ now) :
    Attempted sent ((clockNs a.clock).getD clock) (p.final = false) (p.emitFrame force n a) := by
  unfold Plugin.emitFrame
  by_cases hoff : p.disabled = true ∨ p.socketOpen = false
  · rw [if_pos hoff]
    exact attempted_none (h.later (le_getD hclock))
  rw [if_neg hoff]
  cases hnow : clockNs a.clock with
  | none =>
    exact attempted_settle h Plugin.disabling_add fun q hq => (Plugin.addClockFaults_ok hq).1
  | some now =>
    have hle : clock ≤ now := hclock now hnow
    simp only [Option.getD_some]
    split_ifs with hsoon hback hauth
    · exact attempted_none (h.later hle)
    · exact attempted_disabled rfl
    · exact attempted_disabled rfl
    · have hearly := Plugin.advance_contendeds a.early p
      cases hdrain : (a.early.foldl Plugin.contended p).drainDrops with
      | error q => exact attempted_disabled (Plugin.disabling_drainDrops q hdrain)
      | ok q =>
        have hadv := (hearly.trans (Plugin.drainDrops_ok hdrain)).trans
          (Plugin.advance_contendeds a.late q)
        have hl := h.advance hadv
        rw [← hadv.final]
        exact hl.transmit hle (clockNs_le hnow) fun c hc => hl.covered hle hc

end

/-! ## Runs -/

/-- The readings of the clock in a call, in order. -/
def Op.readings : Op → List ℕ
  | .contended _ => []
  | .callback c a => (clockNs c.clock).toList ++ (clockNs a.clock).toList
  | .cleanup d => (clockNs d.clock).toList ++ (clockNs d.attempt.clock).toList

def Startup.readings (i : Startup) : List ℕ :=
  (clockNs i.clock).toList ++ (clockNs i.attempt.clock).toList

/-- What holds between two calls of a run. -/
structure World.Kept (clock : ℕ) (w : World) : Prop where
  logged : Logged w.sent
  enabled : w.plugin.disabled = true ∨ Live w.sent clock w.plugin ∧ w.plugin.final = false

/-- The last of the known readings. -/
def latest (clock : ℕ) (o o' : Option ℕ) : ℕ := o'.getD (o.getD clock)

theorem latest_le {clock t : ℕ} {o o' : Option ℕ} (h : ∀ u ∈ o.toList ++ o'.toList, u ≤ t)
    (hc : clock ≤ t) : latest clock o o' ≤ t := by
  cases o <;> cases o' <;> simp_all [latest]

theorem le_latest {clock : ℕ} {o o' : Option ℕ} (h : ∀ t ∈ o, clock ≤ t)
    (h' : ∀ t ∈ o', o.getD clock ≤ t) : clock ≤ latest clock o o' :=
  (le_getD h).trans (le_getD h')

theorem World.kept_take {sent : List Sent} {clock : ℕ} {r : Plugin × Option Sent}
    (hs : Logged sent) (hr : Attempted sent clock True r) : (World.take sent r).Kept clock := by
  obtain ⟨hrec, hlive⟩ := hr
  refine ⟨?_, hlive trivial⟩
  cases hsent : r.2 with
  | none => simpa [World.take, hsent] using hs
  | some b =>
    rw [World.take, hsent]
    exact hs.snoc (hrec b hsent)

section
variable {w : World} {clock : ℕ}

theorem World.Kept.contended (h : w.Kept clock) (c : Call) : (w.step (.contended c)).Kept clock := by
  refine World.kept_take h.logged ⟨nofun, fun _ => ?_⟩
  have hadv := Plugin.advance_contended w.plugin c
  rcases h.enabled with hd | ⟨hl, hf⟩
  · exact .inl (hadv.disabled hd)
  · refine .inr ⟨?_, hadv.final.trans hf⟩
    simpa using hl.advance hadv

theorem World.Kept.callback (h : w.Kept clock) (c : Call) (a : Attempt)
    (h1 : ∀ t ∈ clockNs c.clock, clock ≤ t)
    (h2 : ∀ t ∈ clockNs a.clock, (clockNs c.clock).getD clock ≤ t) :
    (w.step (.callback c a)).Kept (latest clock (clockNs c.clock) (clockNs a.clock)) := by
  refine World.kept_take h.logged ?_
  unfold Plugin.callback
  cases hgate : w.plugin.gate c with
  | error q =>
    rcases h.enabled with hd | ⟨hl, hf⟩
    · refine attempted_disabled ?_
      rcases Plugin.gate_error hgate with rfl | rfl
      · exact hd
      · rfl
    · rcases Plugin.gate_error hgate with rfl | rfl
      · have hle : clock ≤ latest clock (clockNs c.clock) (clockNs a.clock) :=
          le_latest h1 h2
        exact ⟨nofun, fun _ => .inr ⟨by simpa using hl.later hle, hf⟩⟩
      · exact attempted_disabled rfl
  | ok kind =>
    have hon : w.plugin.disabled = false := (Plugin.gate_ok hgate).1
    rcases h.enabled with hd | ⟨hl, hf⟩
    · exact absurd (hon.symm.trans hd) (by decide)
    · cases hcol : w.plugin.collect kind (clockNs c.clock) with
      | error q =>
        simp only [hcol]
        exact attempted_disabled (disabling_collect _ _ _ q hcol)
      | ok q =>
        simp only [hcol]
        obtain ⟨hq, hqf⟩ := hl.collect (fun t ht => ⟨h1 t ht, clockNs_le ht⟩) hcol
        obtain ⟨h3, h4⟩ := hq.emitFrame false 1 h2
        exact ⟨h3, fun _ => h4 (hqf.trans hf)⟩

/-- A step that may stop keeps a live plugin live, or disables it. -/
theorem settle_live {sent : List Sent} {x : Except Plugin Plugin} {p : Plugin} (hx : Disabling x)
    (hok : ∀ q, x = .ok q → Advance p q) (h : p.disabled = true ∨ Live sent clock p) :
    (settle x).disabled = true ∨ Live sent clock (settle x) := by
  cases x with
  | error q => exact .inl (hx q rfl)
  | ok q => exact h.imp (hok q rfl).disabled fun hl => hl.advance (hok q rfl)

/-- The marks of the final frame. -/
theorem Live.closing {sent : List Sent} {p : Plugin} {close : Option ℕ} {clock' : ℕ}
    (h : Live sent clock p) (hle : clock ≤ clock') (hclose : ∀ t ∈ close,
      (∀ a ∈ sent, a.plugin.lastAttempt ≤ t) ∧ t ≤ clock' ∧ ∀ b ∈ p.started, b ≤ t) :
    Live sent clock' (p.closing close) :=
  { h.later hle with
    sound := { h.sound with }
    close := fun _ => hclose
    since := fun a ha => { h.since a ha with } }

theorem recorded_emitFinal {sent : List Sent} {p : Plugin} {close : Option ℕ} {a : Attempt}
    (h : p.disabled = true ∨ Live sent clock p) (h1 : ∀ t ∈ close, clock ≤ t)
    (h2 : ∀ t ∈ clockNs a.clock, close.getD clock ≤ t) :
    ∀ b ∈ (p.emitFinal close a).2, Recorded sent b := by
  have hclosing : (p.closing close).disabled = true ∨
      Live sent (close.getD clock) (p.closing close) := by
    refine h.imp id fun hl => hl.closing (le_getD h1) fun t ht => ?_
    have hle := h1 t ht
    obtain rfl : close = some t := ht
    exact ⟨fun a ha => ((hl.since a ha).attempt.trans hl.attempt).trans hle, le_rfl,
      fun b hb => (hl.started b hb).trans hle⟩
  have hcount := settle_live disabling_countFault (fun q hq => (countFault_ok (o := close) hq).1) hclosing
  unfold Plugin.emitFinal
  cases hdrain : (settle ((p.closing close).countFault close)).drainDrops with
  | error r =>
    rintro b ⟨⟩
  | ok r =>
    have hadv := Plugin.drainDrops_ok hdrain
    rcases hcount with hd | hl
    · simp only [disabling_emit (hadv.disabled hd)]
      rintro b ⟨⟩
    · exact ((hl.advance hadv).emitFrame true 0 h2).1

theorem World.Kept.cleanup (h : w.Kept clock) (d : Shutdown)
    (h1 : ∀ t ∈ clockNs d.clock, clock ≤ t)
    (h2 : ∀ t ∈ clockNs d.attempt.clock, (clockNs d.clock).getD clock ≤ t) (clock' : ℕ) :
    (w.step (.cleanup d)).Kept clock' := by
  refine World.kept_take h.logged ?_
  unfold Plugin.cleanup
  split_ifs with hlock hquiet
  · exact attempted_disabled rfl
  · refine ⟨recorded_emitFinal ?_ h1 h2, fun _ => .inl rfl⟩
    exact h.enabled.imp_right fun hl => { hl.1 with sound := { hl.1.sound with }, since := fun a ha => { hl.1.since a ha with } }
  · exact ⟨nofun, fun _ => .inl rfl⟩

end

/-- The plugin right after the start. -/
theorem live_launch (source : Hex 32) (o : Option ℕ) (h : ∀ t ∈ o, t ≤ uint64Max) :
    Live [] (o.getD 0) (Plugin.launch source o) := by
  refine ⟨⟨by simp [Plugin.launch, Plugin.blank], fun _ => le_rfl, Nat.zero_le _, .nil, nofun, Nat.zero_le _,
    Nat.zero_le _, ?_, Nat.zero_le _, h, nofun⟩, rfl, Nat.zero_le _, ?_, ?_, nofun, Nat.zero_le _,
    nofun, nofun, fun _ => rfl⟩
  · cases o <;> simp [Plugin.launch, uint64Max]
  · cases o <;> simp [Plugin.launch]
  · intro b hb
    obtain rfl : o = some b := hb
    exact le_rfl

/-- The start of the plugin. -/
theorem kept_init {i : Startup} (h : i.readings.Pairwise (· ≤ ·)) :
    (World.take [] (init i)).Kept (latest 0 (clockNs i.clock) (clockNs i.attempt.clock)) := by
  refine World.kept_take .nil ?_
  have h2 : ∀ t ∈ clockNs i.attempt.clock, (clockNs i.clock).getD 0 ≤ t := by
    intro t ht
    rw [Startup.readings, List.pairwise_append] at h
    cases hc : clockNs i.clock with
    | none => exact Nat.zero_le _
    | some u => exact h.2.2 u (by simp [hc]) t (by simpa using ht)
  unfold init
  cases i.random with
  | none => exact attempted_disabled rfl
  | some random =>
    dsimp only
    by_cases hbad : i.identifier = false ∨ i.count ≠ 0 ∨ i.allowed = false ∨ i.lockFree = false ∨
        i.socket = false ∨ i.registered = false
    · rw [if_pos hbad]
      exact attempted_disabled rfl
    rw [if_neg hbad]
    have hlive := live_launch (hexText random) (clockNs i.clock) fun t ht => clockNs_le ht
    by_cases hlock : i.locked = true
    · rw [if_pos hlock]
      have := attempted_none (hlive.later (le_getD h2))
      exact ⟨this.1, fun _ => this.2 rfl⟩
    · rw [if_neg hlock]
      cases hdrain : (Plugin.launch (hexText random) (clockNs i.clock)).drainDrops with
      | error q =>
        have hd := Plugin.disabling_drainDrops q hdrain
        rw [settle, disabling_emit hd]
        exact attempted_disabled hd
      | ok q =>
        have hadv := Plugin.drainDrops_ok hdrain
        have := (hlive.advance hadv).emitFrame true 0 h2
        exact ⟨this.1, fun _ => this.2 hadv.final⟩

/-- What holds after any calls, if the clock does not go backwards. -/
theorem World.Kept.foldl {ops : List Op} {w : World} {clock : ℕ} (h : w.Kept clock)
    (hle : ∀ t ∈ ops.flatMap Op.readings, clock ≤ t)
    (hp : (ops.flatMap Op.readings).Pairwise (· ≤ ·)) :
    ∃ clock', (ops.foldl World.step w).Kept clock' := by
  induction ops generalizing w clock with
  | nil => exact ⟨clock, h⟩
  | cons op ops ih =>
    rw [List.flatMap_cons, List.pairwise_append] at hp
    rw [List.flatMap_cons, List.forall_mem_append] at hle
    obtain ⟨hp1, hp2, hp3⟩ := hp
    have hfirst : ∀ {o o' : Option ℕ}, op.readings = o.toList ++ o'.toList →
        (∀ t ∈ o, clock ≤ t) ∧ (∀ t ∈ o', o.getD clock ≤ t) ∧
          ∀ t ∈ ops.flatMap Op.readings, latest clock o o' ≤ t := by
      intro o o' ho
      rw [ho] at hp1 hp3 hle
      refine ⟨fun t ht => hle.1 t (List.mem_append_left _ (by simpa using ht)),
        fun t ht => ?_, fun t ht => ?_⟩
      · cases o with
        | none => exact hle.1 t (by simpa using ht)
        | some u => exact (List.pairwise_append.1 hp1).2.2 u (by simp) t (by simpa using ht)
      · exact latest_le (fun u hu => hp3 u hu t ht) (hle.2 t ht)
    rw [List.foldl_cons]
    cases op with
    | contended c => exact ih (h.contended c) hle.2 hp2
    | callback c a =>
      obtain ⟨h1, h2, h3⟩ := hfirst rfl
      exact ih (h.callback c a h1 h2) h3 hp2
    | cleanup d =>
      obtain ⟨h1, h2, h3⟩ := hfirst rfl
      exact ih (h.cleanup d h1 h2 _) h3 hp2

/-- **What holds in every state of a run whose clock does not go backwards.** -/
theorem kept_run {i : Startup} {ops : List Op}
    (h : (i.readings ++ ops.flatMap Op.readings).Pairwise (· ≤ ·)) :
    ∃ clock, (World.run i ops).Kept clock := by
  rw [List.pairwise_append] at h
  refine (kept_init h.1).foldl (fun t ht => ?_) h.2.1
  exact latest_le (o := clockNs i.clock) (fun u hu => h.2.2 u hu t ht) (Nat.zero_le _)

end SmartHome.Mqtt.Native
