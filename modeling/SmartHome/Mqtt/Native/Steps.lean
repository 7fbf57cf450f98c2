/-
  What the threads of the native sender keep (`Inv`), and what the steps of one thread may change for
  the others (`Act`): one lemma for each kind of atomic operation.

  The fields that the lock guards are described by `Kept`, which holds whenever the lock is free and
  the plugin is enabled; between `mosquitto_plugin_cleanup`'s reading of the clock and its final
  frame the order of the frames' clocks depends on `late`.
-/
import SmartHome.Mqtt.Native.Threads

namespace SmartHome.Mqtt.Native.Threads

open Verif

/-! ## What the lock guards -/

/-- The fields of the plugin that only the holder of the lock writes. -/
def guardedPlugin (p : Plugin) : Plugin :=
  { p with disabled := false, active := false, pendingDrop := fun _ => 0, pendingFaults := 0 }

/-- All fields that only the holder of the lock writes. -/
structure SameGuarded (s s' : Shared) : Prop where
  plugin : guardedPlugin s'.plugin = guardedPlugin s.plugin
  counted : s'.counted = s.counted
  sent : s'.sent = s.sent

theorem SameGuarded.refl (s : Shared) : SameGuarded s s := ⟨rfl, rfl, rfl⟩

/-- The callback counts as pending, or in the totals. -/
def Booked (s : Shared) (t : ℕ) (k : Kind) : Prop :=
  t ∈ s.waiting k ∨ ∃ e ∈ s.counted, e.thread = t ∧ e.kind = k

/-- A reading that has been taken into account, unless the plugin is disabled. -/
def Settled (s : Shared) (r : Reading) : Prop :=
  s.plugin.disabled = true ∨ Booked s r.thread r.kind

/-- What a step of thread `i` may change. -/
structure Act (i : ℕ) (s s' : Shared) : Prop where
  clock : s.clock ≤ s'.clock
  disabled : s.plugin.disabled = true → s'.plugin.disabled = true
  late : s.late = true → s'.late = true
  wrapped : s.wrapped = true → s'.wrapped = true
  started : s'.plugin.started = s.plugin.started
  readings : ∃ new, s'.readings = s.readings ++ new ∧ ∀ r ∈ new, r.thread = i ∧ s.clock ≤ r.atNs
  booked : ∀ t k, Booked s t k → Booked s' t k
  inside : ∀ j, j ≠ i → (j ∈ s'.inside ↔ j ∈ s.inside)
  holder : s'.holder = s.holder ∨ s.holder = none ∧ s'.holder = some i ∨
    s.holder = some i ∧ s'.holder = none
  guarded : s.holder ≠ some i → SameGuarded s s'
  closed : s'.closed = s.closed ∨ i = 0 ∧ ∃ b, s'.closed = some b ∧ s.clock ≤ b

theorem Act.refl (i : ℕ) (s : Shared) : Act i s s :=
  ⟨le_rfl, id, id, id, rfl, ⟨[], by simp⟩, fun _ _ h => h, fun _ _ => Iff.rfl, .inl rfl,
    fun _ => .refl s, .inl rfl⟩

/-- The totals and the ring against the callbacks counted, where `owed` events of each class have
    been drained but not yet added. -/
structure Accounts (owed : Kind → ℕ) (s : Shared) : Prop where
  total : s.wrapped = false → ∀ k, s.plugin.total k + owed k = s.counted.countP fun e => e.kind = k
  dropped : s.wrapped = false → ∀ k, s.plugin.dropped k + owed k =
    s.counted.countP fun e => e.kind = k ∧ e.row = none
  rows : ∀ e ∈ s.counted, ∀ r ∈ e.row, r.kind = e.kind ∧
    (r ∈ s.plugin.pending ∨ ∃ d ∈ s.sent, r ∈ d.sent.plugin.pending)

/-- What the lock guards, as of the time `t`. -/
def Kept (owed : Kind → ℕ) (final : Bool) (t : ℕ) (s : Shared) : Prop :=
  s.plugin.disabled = false →
    Accounts owed s ∧ s.plugin.final = final ∧ (s.late = false → Live s.log t s.plugin)

/-! ## The invariant -/

/-- The datagram is the frame in the buffer. -/
def Textual (f : Sent) : Prop :=
  ∃ buffer, f.plugin.text f.coveredBeforeNs f.plugin.lastAttempt = some buffer ∧ f.raw = ascii buffer

/-- What a datagram says about the callbacks in its totals, after the datagrams `pre`. -/
structure Framed (wrapped : Bool) (pre : List Dispatch) (d : Dispatch) : Prop where
  text : Textual d.sent
  total : wrapped = false → ∀ k, d.sent.plugin.total k = d.counted.countP fun e => e.kind = k
  dropped : wrapped = false → ∀ k, d.sent.plugin.dropped k =
    d.counted.countP fun e => e.kind = k ∧ e.row = none
  rows : ∀ e ∈ d.counted, ∀ r ∈ e.row, r.kind = e.kind ∧
    ∃ d' ∈ pre ++ [d], r ∈ d'.sent.plugin.pending

/-- The stamp of a datagram covers what was read before it. -/
def Covers (s : Shared) (d : Dispatch) : Prop :=
  ∀ c ∈ d.sent.coveredBeforeNs, c ≤ s.clock ∧ (s.wrapped = false → ∀ r ∈ s.readings, r.atNs < c →
    ∃ e ∈ d.counted, e.thread = r.thread ∧ e.kind = r.kind)

structure Inv (s : Shared) : Prop where
  callbacks : s.callbacks < 2 ^ 32
  entered : s.wrapped = false → s.callbacks = s.inside.card
  waiting : s.wrapped = false → ∀ k, s.plugin.pendingDrop k = (s.waiting k).length
  pending : ∀ k, s.plugin.pendingDrop k < 2 ^ 64
  started : ∀ b ∈ s.plugin.started, b ≤ s.clock
  settled : ∀ r ∈ s.readings, r.thread ∈ s.inside ∨ Settled s r
  kept : s.holder = none → Kept 0 false s.clock s
  frames : ∀ pre d post, s.sent = pre ++ d :: post → Framed s.wrapped pre d
  covers : ∀ d ∈ s.sent, Covers s d
  past : ∀ d ∈ s.sent, d.sent.plugin.lastAttempt ≤ s.clock
  logged : s.late = false → Logged s.log
  order : s.late = false → ∀ b ∈ s.closed, ∀ d ∈ s.sent, d.sent.plugin.final = false →
    d.sent.plugin.lastAttempt ≤ b

/-- Nothing is known of a callback that has not started. -/
structure Fresh (i : ℕ) (s : Shared) : Prop where
  inside : i ∉ s.inside
  holder : s.holder ≠ some i
  readings : ∀ r ∈ s.readings, r.thread ≠ i

/-- The invariant and the guarantees. -/
def protocol : Protocol Shared := ⟨Inv, Act, Fresh⟩

/-! ## Facts that the others keep -/

section
variable {i j : ℕ} {s s' : Shared} {p q : Plugin}

theorem live_guarded {sent : List Sent} {t : ℕ} (h : Live sent t p)
    (hq : guardedPlugin q = guardedPlugin p) : Live sent t q := by
  have heq : q = { p with
      disabled := q.disabled, active := q.active, pendingDrop := q.pendingDrop
      pendingFaults := q.pendingFaults } := by
    simp only [guardedPlugin, Plugin.mk.injEq] at hq
    cases p; cases q
    simp_all
  rw [heq]
  exact { h with sound := { h.sound with }, since := fun a ha => { h.since a ha with } }

/-- A guarded field. -/
theorem SameGuarded.field {α : Type} (h : SameGuarded s s') (f : Plugin → α)
    (hf : ∀ p, f (guardedPlugin p) = f p) : f s'.plugin = f s.plugin := by
  rw [← hf s'.plugin, h.plugin, hf]

theorem SameGuarded.final (h : SameGuarded s s') : s'.plugin.final = s.plugin.final :=
  h.field Plugin.final fun _ => rfl

theorem Accounts.mono {owed : Kind → ℕ} (h : Accounts owed s) (hg : SameGuarded s s')
    (hw : s.wrapped = true → s'.wrapped = true) : Accounts owed s' := by
  have hback : s'.wrapped = false → s.wrapped = false :=
    fun h0 => Bool.eq_false_iff.2 fun h1 => by simp [hw h1] at h0
  have htot := hg.field Plugin.total fun _ => rfl
  have hdrop := hg.field Plugin.dropped fun _ => rfl
  have hring := hg.field Plugin.pending fun _ => rfl
  refine ⟨fun h0 => ?_, fun h0 => ?_, ?_⟩
  · rw [htot, hg.counted]
    exact h.total (hback h0)
  · rw [hdrop, hg.counted]
    exact h.dropped (hback h0)
  · rw [hg.counted, hring, hg.sent]
    exact h.rows

/-- What the lock guards only depends on the guarded fields. -/
theorem Kept.mono {owed : Kind → ℕ} {final : Bool} {t t' : ℕ} (h : Kept owed final t s)
    (ht : t ≤ t') (hg : SameGuarded s s')
    (hd : s.plugin.disabled = true → s'.plugin.disabled = true) (hl : s.late = true → s'.late = true)
    (hw : s.wrapped = true → s'.wrapped = true) : Kept owed final t' s' := by
  intro hs
  have hs : s.plugin.disabled = false := Bool.eq_false_iff.2 fun hs' => by simp [hd hs'] at hs
  obtain ⟨ha, hf, hlive⟩ := h hs
  refine ⟨ha.mono hg hw, hg.final.trans hf, fun h0 => ?_⟩
  have h1 : s.late = false := Bool.eq_false_iff.2 fun h1 => by simp [hl h1] at h0
  rw [Shared.log, hg.sent]
  exact live_guarded ((hlive h1).later ht) hg.plugin

theorem Kept.later {owed : Kind → ℕ} {final : Bool} {t t' : ℕ} (h : Kept owed final t s)
    (ht : t ≤ t') : Kept owed final t' s := h.mono ht (.refl s) id id id

theorem kept_disabled {owed : Kind → ℕ} {final : Bool} {t : ℕ} (h : s.plugin.disabled = true) :
    Kept owed final t s := by
  intro h'
  rw [h] at h'
  exact Bool.noConfusion h'

theorem Settled.act {r : Reading} (h : Act j s s') (hr : Settled s r) : Settled s' r :=
  hr.imp h.disabled fun hb => h.booked _ _ hb

end

/-! ## The holder of the lock -/

/-- A fact about thread `i` that survives the steps of the others, and its own as long as these leave
    alone what is known of callbacks and of the end. -/
def Rider (i : ℕ) (X : Shared → Prop) : Prop :=
  ∀ j s s', Act j s s' → (j = i → s'.readings = s.readings ∧ s'.inside = s.inside ∧
    s'.closed = s.closed) → X s → X s'

/-- What a thread does under the lock: what it knows of itself, whether the final frame is under way,
    and a time that it knows of; `emitting` says that `emit_frame` has read that time. -/
structure Task where
  thread : ℕ
  knows : Shared → Prop
  rider : Rider thread knows
  final : Bool
  time : ℕ
  emitting : Bool

/-- The thread holds the lock, and what the lock guards is right up to `owed`. -/
structure Hold (τ : Task) (owed : Kind → ℕ) (s : Shared) : Prop where
  holder : s.holder = some τ.thread
  knows : τ.knows s
  time : τ.time ≤ s.clock
  kept : Kept owed τ.final τ.time s
  order : τ.emitting = true → s.late = false → s.plugin.final = false → ∀ b ∈ s.closed, τ.time ≤ b

section
variable {i j : ℕ} {s s' : Shared} {p q : Plugin} {τ : Task} {owed : Kind → ℕ}

theorem Act.holds (h : Act j s s') (hj : j ≠ i) (hi : s.holder = some i) : s'.holder = some i := by
  rcases h.holder with h | ⟨h, -⟩ | ⟨h, -⟩
  · exact h.trans hi
  · rw [hi] at h; cases h
  · rw [hi] at h; cases h; exact absurd rfl hj

theorem Act.notLate (h : Act j s s') (hs : s'.late = false) : s.late = false :=
  Bool.eq_false_iff.2 fun h1 => by simp [h.late h1] at hs

/-- What the holder of the lock knows is stable. -/
theorem stable_hold (τ : Task) (owed : Kind → ℕ) : protocol.Stable τ.thread (Hold τ owed) := by
  intro j hj s s' _ _ hact h
  have hact : Act j s s' := hact
  have hg : SameGuarded s s' := by
    refine hact.guarded fun hs => ?_
    rw [h.holder] at hs
    cases hs
    exact hj rfl
  constructor
  · exact hact.holds hj h.holder
  · exact τ.rider j s s' hact (fun h => absurd h hj) h.knows
  · exact h.time.trans hact.clock
  · exact h.kept.mono le_rfl hg hact.disabled hact.late hact.wrapped
  · intro he hl hf b hb
    rcases hact.closed with hc | ⟨-, b', hc, hle⟩
    · exact h.order he (hact.notLate hl) (hg.final ▸ hf) b (hc ▸ hb)
    · rw [hc] at hb
      cases hb
      exact h.time.trans hle

/-- A step that leaves alone what is known of callbacks, of the clock and of the end. -/
theorem Hold.step {owed' : Kind → ℕ} (h : Hold τ owed s) (hact : Act τ.thread s s')
    (hh : s'.holder = s.holder) (hr : s'.readings = s.readings) (hi : s'.inside = s.inside)
    (hc : s'.closed = s.closed) (hl : s'.late = s.late)
    (hf : s'.plugin.final = false → s.plugin.final = false)
    (hk : Kept owed' τ.final τ.time s') : Hold τ owed' s' where
  holder := hh.trans h.holder
  knows := τ.rider _ _ _ hact (fun _ => ⟨hr, hi, hc⟩) h.knows
  time := h.time.trans hact.clock
  kept := hk
  order he hs hfin b hb := h.order he (hl ▸ hs) (hf hfin) b (hc ▸ hb)

end

/-! ## Plain code -/

/-- The fields that plain code under the lock leaves alone. -/
structure Plain (p q : Plugin) : Prop where
  disabled : p.disabled = true → q.disabled = true
  pendingDrop : q.pendingDrop = p.pendingDrop
  started : q.started = p.started
  final : q.final = false → p.final = false

theorem Plain.refl (p : Plugin) : Plain p p := ⟨id, rfl, rfl, id⟩

theorem Plain.trans {p q r : Plugin} (h : Plain p q) (h' : Plain q r) : Plain p r :=
  ⟨fun hd => h'.disabled (h.disabled hd), h'.pendingDrop.trans h.pendingDrop,
    h'.started.trans h.started, fun hf => h.final (h'.final hf)⟩

/-- Plain code with both its ends. -/
def Tame (p : Plugin) (x : Except Plugin Plugin) : Prop :=
  ∀ q, x = .ok q ∨ x = .error q → Plain p q

section
variable {p q : Plugin}

theorem Tame.settle {x : Except Plugin Plugin} (h : Tame p x) : Plain p (settle x) := by
  cases x with
  | ok q => exact h q (.inl rfl)
  | error q => exact h q (.inr rfl)

theorem tame_ok (h : Plain p q) : Tame p (.ok q) := by
  rintro r (hr | hr) <;> cases hr
  exact h

theorem Tame.bind {x : Except Plugin Plugin} {f : Plugin → Except Plugin Plugin} (hx : Tame p x)
    (hf : ∀ q, Tame q (f q)) : Tame p (x >>= f) := by
  cases x with
  | ok q =>
    intro r hr
    exact (hx q (.inl rfl)).trans (hf q r hr)
  | error q =>
    rintro r (hr | hr) <;> cases hr
    exact hx q (.inr rfl)

theorem tame_add {value amount : ℕ} {store : ℕ → Plugin} (h : ∀ v, Plain p (store v)) :
    Tame p (p.add value amount store) := by
  unfold Plugin.add
  split_ifs
  · rintro r (hr | hr) <;> cases hr
    exact ⟨fun _ => rfl, rfl, rfl, id⟩
  · exact tame_ok (h _)

theorem tame_addEventSeq (n : ℕ) : Tame p (p.addEventSeq n) := tame_add fun _ => ⟨id, rfl, rfl, id⟩

theorem tame_addTotal (k : Kind) (n : ℕ) : Tame p (p.addTotal k n) :=
  tame_add fun _ => ⟨id, rfl, rfl, id⟩

theorem tame_addDropped (k : Kind) (n : ℕ) : Tame p (p.addDropped k n) :=
  tame_add fun _ => ⟨id, rfl, rfl, id⟩

theorem tame_addClockFaults (n : ℕ) : Tame p (p.addClockFaults n) :=
  tame_add fun _ => ⟨id, rfl, rfl, id⟩

theorem tame_addSendFailures (n : ℕ) : Tame p (p.addSendFailures n) :=
  tame_add fun _ => ⟨id, rfl, rfl, id⟩

theorem tame_takeDrops (k : Kind) (n : ℕ) : Tame p (p.takeDrops k n) :=
  (tame_addEventSeq n).bind fun _ => (tame_addTotal k n).bind fun _ => tame_addDropped k n

theorem tame_countFault (o : Option ℕ) : Tame p (p.countFault o) := by
  unfold Plugin.countFault
  split_ifs
  · exact tame_addClockFaults 1
  · exact tame_ok (.refl p)

theorem tame_countEvent (kind : Option Kind) (o : Option ℕ) : Tame p (p.countEvent kind o) := by
  refine (tame_countFault o).bind fun p => ?_
  cases kind with
  | none => exact tame_ok (.refl p)
  | some k =>
    refine (tame_addEventSeq 1).bind fun _ => (tame_addTotal k 1).bind fun p => ?_
    split_ifs
    · exact tame_ok ⟨id, rfl, rfl, id⟩
    · exact tame_addDropped k 1

end

/-! ## Steps under the lock -/

section
variable {i : ℕ} {s : Shared} {q : Plugin}

/-- Plain code under the lock. -/
theorem Inv.plug (h : Inv s) (hi : s.holder = some i) (hq : Plain s.plugin q) :
    Inv (s.plug q) ∧ Act i s (s.plug q) := by
  have hact : Act i s (s.plug q) := by
    refine { Act.refl i s with
      disabled := hq.disabled
      started := hq.started
      guarded := fun hne => absurd hi hne }
  refine ⟨{ h with
    waiting := fun hw k => ?_
    pending := fun k => ?_
    started := ?_
    settled := fun r hr => (h.settled r hr).imp id fun hs => hs.act hact
    kept := fun hn => ?_ }, hact⟩
  · exact (congrFun hq.pendingDrop k).trans (h.waiting hw k)
  · exact (congrFun hq.pendingDrop k).trans_lt (h.pending k)
  · exact fun b hb => h.started b (hq.started ▸ hb)
  · rw [Shared.plug, hi] at hn
    cases hn

/-- The stamp of a datagram still covers what was read before it. -/
theorem Covers.act {s' : Shared} {d : Dispatch} (h : Covers s d) (hact : Act i s s') : Covers s' d := by
  intro c hc
  obtain ⟨hle, hcov⟩ := h c hc
  refine ⟨hle.trans hact.clock, fun hw r hr hlt => ?_⟩
  have hw : s.wrapped = false := Bool.eq_false_iff.2 fun h1 => by simp [hact.wrapped h1] at hw
  obtain ⟨new, hnew, hlater⟩ := hact.readings
  rw [hnew, List.mem_append] at hr
  rcases hr with hr | hr
  · exact hcov hw r hr hlt
  · exact absurd (hle.trans (hlater r hr).2) (not_le.2 hlt)

/-- An atomic operation on a field that the lock does not guard. -/
theorem Inv.free (h : Inv s) (i : ℕ) (hq : guardedPlugin q = guardedPlugin s.plugin)
    (hp : q.pendingDrop = s.plugin.pendingDrop) (hd : s.plugin.disabled = true → q.disabled = true) :
    Inv (s.plug q) ∧ Act i s (s.plug q) := by
  have hg : SameGuarded s (s.plug q) := ⟨hq, rfl, rfl⟩
  have hact : Act i s (s.plug q) := { Act.refl i s with
    disabled := hd
    started := hg.field Plugin.started fun _ => rfl
    guarded := fun _ => hg }
  refine ⟨{ h with
    waiting := fun hw k => ?_
    pending := fun k => ?_
    started := ?_
    settled := fun r hr => (h.settled r hr).imp id fun hs => hs.act hact
    kept := fun hn => (h.kept hn).mono le_rfl hg hd id id }, hact⟩
  · exact (congrFun hp k).trans (h.waiting hw k)
  · exact (congrFun hp k).trans_lt (h.pending k)
  · exact fun b hb => h.started b (hact.started ▸ hb)

theorem Framed.mono {w w' : Bool} {pre : List Dispatch} {d : Dispatch} (h : Framed w pre d)
    (hw : w = true → w' = true) : Framed w' pre d := by
  have hback : w' = false → w = false := fun h0 => Bool.eq_false_iff.2 fun h1 => by simp [hw h1] at h0
  exact ⟨h.text, fun h0 => h.total (hback h0), fun h0 => h.dropped (hback h0), h.rows⟩

/-! ## Callbacks that come and go -/

/-- A callback adds itself. -/
theorem Inv.enter (h : Inv s) (hi : i ∉ s.inside) : Inv (s.enter i) ∧ Act i s (s.enter i) := by
  have hwrap : s.wrapped = true → (s.enter i).wrapped = true := by
    intro hw
    simp [Shared.enter, hw]
  have hact : Act i s (s.enter i) := { Act.refl i s with
    wrapped := hwrap
    inside := fun j hj => Finset.mem_insert.trans (or_iff_right hj)
    guarded := fun _ => ⟨rfl, rfl, rfl⟩ }
  refine ⟨{ h with
    callbacks := Nat.mod_lt _ (by norm_num)
    entered := fun hw => ?_
    waiting := fun hw => h.waiting (Bool.eq_false_iff.2 fun h1 => by simp [hwrap h1] at hw)
    settled := fun r hr => (h.settled r hr).imp (fun hs => Finset.mem_insert_of_mem hs) fun hs => hs.act hact
    kept := fun hn => (h.kept hn).mono le_rfl ⟨rfl, rfl, rfl⟩ id id hwrap
    frames := fun pre d post hs => (h.frames pre d post hs).mono hwrap
    covers := fun d hd => (h.covers d hd).act hact }, hact⟩
  have hlt := h.callbacks
  simp only [Shared.enter, Bool.or_eq_false_iff, decide_eq_false_iff_not] at hw ⊢
  have hcard := h.entered hw.1
  rw [Finset.card_insert_of_notMem hi, Nat.mod_eq_of_lt (by omega), hcard]

/-- A callback whose readings have been taken into account takes itself out. -/
theorem Inv.leave (h : Inv s) (hi : i ∈ s.inside) (hown : ∀ r ∈ s.readings, r.thread = i → Settled s r) :
    Inv (s.leave i) ∧ Act i s (s.leave i) := by
  have hact : Act i s (s.leave i) := { Act.refl i s with
    inside := fun j hj => Finset.mem_erase.trans (and_iff_right hj)
    guarded := fun _ => ⟨rfl, rfl, rfl⟩ }
  refine ⟨{ h with
    callbacks := ?_
    entered := fun hw => ?_
    kept := fun hn => (h.kept hn).mono le_rfl ⟨rfl, rfl, rfl⟩ id id id
    settled := fun r hr => ?_
    covers := fun d hd => (h.covers d hd).act hact }, hact⟩
  · have hlt := h.callbacks
    simp only [Shared.leave]
    split_ifs <;> omega
  · have hcard : s.callbacks = s.inside.card := h.entered hw
    have hpos : 0 < s.inside.card := Finset.card_pos.2 ⟨i, hi⟩
    simp only [Shared.leave]
    rw [Finset.card_erase_of_mem hi, ← hcard, if_neg (by omega)]
  · by_cases hr' : r.thread = i
    · exact .inr ((hown r hr hr').act hact)
    · exact (h.settled r hr).imp (fun hs => Finset.mem_erase.2 ⟨hr', hs⟩) fun hs => hs.act hact

/-- Time passes. -/
theorem Inv.later (h : Inv s) (i d : ℕ) :
    Inv { s with clock := s.clock + d } ∧ Act i s { s with clock := s.clock + d } := by
  have hle : s.clock ≤ s.clock + d := Nat.le_add_right _ _
  have hact : Act i s { s with clock := s.clock + d } := { Act.refl i s with
    clock := hle
    guarded := fun _ => ⟨rfl, rfl, rfl⟩ }
  exact ⟨{ h with
    started := fun b hb => (h.started b hb).trans hle
    settled := fun r hr => (h.settled r hr).imp id fun hs => hs.act hact
    kept := fun hn => (h.kept hn).mono hle ⟨rfl, rfl, rfl⟩ id id id
    past := fun d hd => (h.past d hd).trans hle
    covers := fun d hd => (h.covers d hd).act hact }, hact⟩

/-- A step after some time. -/
theorem Act.after {d : ℕ} {s' : Shared} (h : Act i { s with clock := s.clock + d } s') : Act i s s' where
  clock := (Nat.le_add_right _ d).trans h.clock
  disabled := h.disabled
  late := h.late
  wrapped := h.wrapped
  started := h.started
  readings := by
    obtain ⟨new, hnew, hlater⟩ := h.readings
    exact ⟨new, hnew, fun r hr => ⟨(hlater r hr).1, (Nat.le_add_right _ d).trans (hlater r hr).2⟩⟩
  booked := h.booked
  inside := h.inside
  holder := h.holder
  guarded hne := by
    obtain ⟨h1, h2, h3⟩ := h.guarded hne
    exact ⟨h1, h2, h3⟩
  closed := by
    rcases h.closed with hc | ⟨hi, b, hb, hle⟩
    · exact .inl hc
    · exact .inr ⟨hi, b, hb, (Nat.le_add_right _ d).trans hle⟩

/-! ## What is read from the clock -/

/-- A callback in progress reads the clock. -/
theorem Inv.noteEvent (h : Inv s) (hi : i ∈ s.inside) (kind : Option Kind) :
    Inv (noteEvent i kind s.clock s) ∧ Act i s (noteEvent i kind s.clock s) := by
  have hnew : ∀ r ∈ (kind.map fun k => (⟨i, k, s.clock⟩ : Reading)).toList,
      r.thread = i ∧ s.clock ≤ r.atNs := by
    intro r hr
    obtain ⟨k, -, rfl⟩ := Option.map_eq_some_iff.1 (Option.mem_toList.1 hr)
    exact ⟨rfl, le_rfl⟩
  have hact : Act i s (Threads.noteEvent i kind s.clock s) := { Act.refl i s with
    readings := ⟨_, rfl, hnew⟩
    guarded := fun _ => ⟨rfl, rfl, rfl⟩ }
  refine ⟨{ h with
    settled := fun r hr => ?_
    kept := fun hn => (h.kept hn).mono le_rfl ⟨rfl, rfl, rfl⟩ id id id
    covers := fun d hd => (h.covers d hd).act hact }, hact⟩
  rcases List.mem_append.1 hr with hr | hr
  · exact h.settled r hr
  · exact .inl ((hnew r hr).1 ▸ hi)

/-- `emit_frame` reads the clock. -/
theorem Inv.noteFrame (h : Inv s) (i t : ℕ) : Inv (noteFrame t s) ∧ Act i s (noteFrame t s) := by
  have hlate : s.late = true → (Threads.noteFrame t s).late = true := by
    intro hl
    simp [Threads.noteFrame, hl]
  have hback : (Threads.noteFrame t s).late = false → s.late = false :=
    fun h0 => Bool.eq_false_iff.2 fun h1 => by simp [hlate h1] at h0
  have hact : Act i s (Threads.noteFrame t s) := { Act.refl i s with
    late := hlate
    guarded := fun _ => ⟨rfl, rfl, rfl⟩ }
  exact ⟨{ h with
    kept := fun hn => (h.kept hn).mono le_rfl ⟨rfl, rfl, rfl⟩ id hlate id
    covers := fun d hd => (h.covers d hd).act hact
    logged := fun hl => h.logged (hback hl)
    order := fun hl => h.order (hback hl) }, hact⟩

/-- `mosquitto_plugin_cleanup` reads the clock. -/
theorem Inv.noteClose (h : Inv s) : Inv (noteClose s.clock s) ∧ Act 0 s (noteClose s.clock s) := by
  have hact : Act 0 s (Threads.noteClose s.clock s) := { Act.refl 0 s with
    closed := .inr ⟨rfl, _, rfl, le_rfl⟩
    guarded := fun _ => ⟨rfl, rfl, rfl⟩ }
  refine ⟨{ h with
    kept := fun hn => (h.kept hn).mono le_rfl ⟨rfl, rfl, rfl⟩ id id id
    covers := fun d hd => (h.covers d hd).act hact
    order := fun _ b hb d hd _ => ?_ }, hact⟩
  obtain rfl : s.clock = b := Option.some.inj hb
  exact h.past d hd

/-! ## The lock -/

theorem Inv.tryLock (h : Inv s) (i : ℕ) : Inv (s.tryLock i) ∧ Act i s (s.tryLock i) := by
  unfold Shared.tryLock
  split_ifs with hfree
  · have hfree : s.holder = none := Option.isNone_iff_eq_none.1 hfree
    refine ⟨{ h with kept := fun hn => by cases hn }, { Act.refl i s with
      holder := .inr (.inl ⟨hfree, rfl⟩)
      guarded := fun _ => ⟨rfl, rfl, rfl⟩ }⟩
  · exact ⟨h, .refl i s⟩

theorem Inv.unlock (h : Inv s) (hi : s.holder = some i) (hk : Kept 0 false s.clock s) :
    Inv s.unlock ∧ Act i s s.unlock :=
  ⟨{ h with kept := fun _ => hk.mono le_rfl ⟨rfl, rfl, rfl⟩ id id id }, { Act.refl i s with
    holder := .inr (.inr ⟨hi, rfl⟩)
    guarded := fun _ => ⟨rfl, rfl, rfl⟩ }⟩

/-! ## Pending counts -/

/-- A callback counts itself as pending. -/
theorem Inv.incrementDrop (h : Inv s) (i : ℕ) (k : Kind) :
    Inv (s.incrementDrop i k) ∧ Act i s (s.incrementDrop i k) ∧ Booked (s.incrementDrop i k) i k := by
  have hwrap : s.wrapped = true → (s.incrementDrop i k).wrapped = true := by
    intro hw
    simp [Shared.incrementDrop, hw]
  have hsub : ∀ t k', t ∈ s.waiting k' → t ∈ (s.incrementDrop i k).waiting k' := by
    intro t k' ht
    by_cases hk : k' = k
    · subst hk
      simp [Shared.incrementDrop, ht]
    · simpa [Shared.incrementDrop, hk] using ht
  have hact : Act i s (s.incrementDrop i k) := { Act.refl i s with
    wrapped := hwrap
    booked := fun t k' hb => hb.imp (hsub t k') id
    guarded := fun _ => ⟨rfl, rfl, rfl⟩ }
  refine ⟨{ h with
    entered := fun hw => h.entered (Bool.eq_false_iff.2 fun h1 => by simp [hwrap h1] at hw)
    waiting := fun hw k' => ?_
    pending := fun k' => ?_
    settled := fun r hr => (h.settled r hr).imp id fun hs => hs.act hact
    kept := fun hn => (h.kept hn).mono le_rfl ⟨rfl, rfl, rfl⟩ id id hwrap
    frames := fun pre d post hs => (h.frames pre d post hs).mono hwrap
    covers := fun d hd => (h.covers d hd).act hact }, hact, .inl ?_⟩
  · have hlt := h.pending k
    simp only [Shared.incrementDrop, Bool.or_eq_false_iff, decide_eq_false_iff_not] at hw ⊢
    have hlen := h.waiting hw.1 k'
    by_cases hk : k' = k
    · subst hk
      have hne := hw.2
      unfold uint64Max at hne
      rw [Function.update_self, Function.update_self, List.length_append, ← hlen]
      exact Nat.mod_eq_of_lt (by omega)
    · rw [Function.update_of_ne hk, Function.update_of_ne hk]
      exact hlen
  · simp only [Shared.incrementDrop]
    by_cases hk : k' = k
    · subst hk
      rw [Function.update_self]
      exact Nat.mod_lt _ (by norm_num)
    · rw [Function.update_of_ne hk]
      exact h.pending k'
  · simp [Shared.incrementDrop]

/-- Those that wait are counted as dropped. -/
theorem Inv.exchangeDrop (h : Inv s) (hi : s.holder = some i) (k : Kind) :
    Inv (s.exchangeDrop k) ∧ Act i s (s.exchangeDrop k) := by
  have hbooked : ∀ t k', Booked s t k' → Booked (s.exchangeDrop k) t k' := by
    rintro t k' (ht | ⟨e, he, hek⟩)
    · by_cases hk : k' = k
      · subst hk
        exact .inr ⟨⟨t, k', none⟩, List.mem_append_right _ (List.mem_map.2 ⟨t, ht, rfl⟩), rfl, rfl⟩
      · refine .inl ?_
        simpa [Shared.exchangeDrop, hk] using ht
    · exact .inr ⟨e, List.mem_append_left _ he, hek⟩
  have hact : Act i s (s.exchangeDrop k) := { Act.refl i s with
    booked := hbooked
    guarded := fun hne => absurd hi hne }
  refine ⟨{ h with
    waiting := fun hw k' => ?_
    pending := fun k' => ?_
    settled := fun r hr => (h.settled r hr).imp id fun hs => hs.act hact
    kept := fun hn => ?_
    covers := fun d hd => (h.covers d hd).act hact }, hact⟩
  · have hlen := h.waiting hw k'
    simp only [Shared.exchangeDrop]
    by_cases hk : k' = k
    · subst hk
      rw [Function.update_self, Function.update_self, List.length_nil]
    · rw [Function.update_of_ne hk, Function.update_of_ne hk]
      exact hlen
  · simp only [Shared.exchangeDrop]
    by_cases hk : k' = k
    · subst hk
      rw [Function.update_self]
      norm_num
    · rw [Function.update_of_ne hk]
      exact h.pending k'
  · rw [Shared.exchangeDrop, hi] at hn
    cases hn

/-! ## Counting and sending -/

/-- The holder of the lock counts its own event. -/
theorem Inv.countEvent (h : Inv s) (hi : s.holder = some i) (kind : Option Kind)
    (occurred : Option ℕ) :
    Inv (s.countEvent i kind occurred) ∧ Act i s (s.countEvent i kind occurred) := by
  have htame := tame_countEvent (p := s.plugin) kind occurred
  unfold Shared.countEvent
  cases hx : s.plugin.countEvent kind occurred with
  | error q => exact h.plug hi (htame q (.inr hx))
  | ok q =>
    obtain ⟨hinv, hact⟩ := h.plug hi (htame q (.inl hx))
    have hact : Act i s { s with
        plugin := q
        counted := s.counted ++ (kind.map fun k => ⟨i, k, s.plugin.eventRow k occurred⟩).toList } :=
      { hact with
        booked := fun t k hb => hb.imp id fun he => by
          obtain ⟨e, he, hek⟩ := he
          exact ⟨e, List.mem_append_left _ he, hek⟩
        guarded := fun hne => absurd hi hne }
    refine ⟨{ hinv with
      settled := fun r hr => (h.settled r hr).imp id fun hs => hs.act hact
      kept := fun hn => ?_
      covers := fun d hd => (h.covers d hd).act hact }, hact⟩
    simp only [hi] at hn
    cases hn

theorem split_snoc {α : Type} {pre post l : List α} {d x : α} (h : l ++ [x] = pre ++ d :: post) :
    (pre = l ∧ d = x) ∨ ∃ post', l = pre ++ d :: post' := by
  rcases List.eq_nil_or_concat post with rfl | ⟨post', y, rfl⟩
  · obtain ⟨h1, h2⟩ := List.append_inj' h rfl
    exact .inl ⟨h1.symm, (List.singleton_inj.1 h2).symm⟩
  · rw [List.concat_eq_append, ← List.cons_append, ← List.append_assoc] at h
    exact .inr ⟨post', (List.append_inj' h rfl).1⟩

/-- The kernel takes a frame: what the frame has to satisfy then. -/
structure Sendable (f : Sent) (s : Shared) : Prop where
  text : Textual f
  accounts : Accounts 0 s
  plugin : guardedPlugin f.plugin = guardedPlugin s.plugin
  past : f.plugin.lastAttempt ≤ s.clock
  covers : ∀ c ∈ f.coveredBeforeNs, c ≤ s.clock ∧ (s.wrapped = false → ∀ r ∈ s.readings, r.atNs < c →
    ∃ e ∈ s.counted, e.thread = r.thread ∧ e.kind = r.kind)
  recorded : s.late = false → Recorded s.log f
  order : s.late = false → f.plugin.final = false → ∀ b ∈ s.closed, f.plugin.lastAttempt ≤ b

theorem Inv.sent (h : Inv s) (hi : s.holder = some i) {f : Sent} (hf : Sendable f s) :
    Inv (s.record f .sent) ∧ Act i s (s.record f .sent) := by
  have hg : SameGuarded (s.plug f.plugin) s := ⟨hf.plugin.symm, rfl, rfl⟩
  have hact : Act i s (s.record f .sent) := { Act.refl i s with
    guarded := fun hne => absurd hi hne }
  refine ⟨{ h with
    settled := fun r hr => (h.settled r hr).imp id fun hs => hs.act hact
    kept := fun hn => ?_
    frames := fun pre d post hs => ?_
    covers := fun d hd => ?_
    past := fun d hd => ?_
    logged := fun hl => ?_
    order := fun hl b hb d hd hfin => ?_ }, hact⟩
  · simp only [Shared.record, hi] at hn
    cases hn
  · rcases split_snoc hs with ⟨rfl, rfl⟩ | ⟨post', hpre⟩
    · have htot := hg.field Plugin.total fun _ => rfl
      have hdrop := hg.field Plugin.dropped fun _ => rfl
      have hring := hg.field Plugin.pending fun _ => rfl
      refine ⟨hf.text, fun hw k => ?_, fun hw k => ?_, fun e he r hr => ?_⟩
      · exact (congrFun htot k).symm.trans (hf.accounts.total hw k)
      · exact (congrFun hdrop k).symm.trans (hf.accounts.dropped hw k)
      · obtain ⟨hk, hr' | ⟨d, hd, hr'⟩⟩ := hf.accounts.rows e he r hr
        · exact ⟨hk, _, List.mem_append_right _ (List.mem_singleton_self _), hring ▸ hr'⟩
        · exact ⟨hk, d, List.mem_append_left _ hd, hr'⟩
    · exact h.frames pre d post' hpre
  · rcases List.mem_append.1 hd with hd | hd
    · exact (h.covers d hd).act hact
    · rw [List.mem_singleton] at hd
      subst hd
      exact hf.covers
  · rcases List.mem_append.1 hd with hd | hd
    · exact h.past d hd
    · rw [List.mem_singleton] at hd
      subst hd
      exact hf.past
  · have hlog : (s.record f .sent).log = s.log ++ [f] := List.map_append
    rw [hlog]
    exact (h.logged hl).snoc (hf.recorded hl)
  · rcases List.mem_append.1 hd with hd | hd
    · exact h.order hl b hb d hd hfin
    · rw [List.mem_singleton] at hd
      subst hd
      exact hf.order hl hfin b hb

end

end SmartHome.Mqtt.Native.Threads
