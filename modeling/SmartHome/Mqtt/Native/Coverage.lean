/-
  The native sender's stamps, in every run of its threads: a stamp covers every callback that has read
  an earlier time (`coverage_sound`), and the stamps do not go back as long as no callback's frame is
  later than the time that the end of the plugin has read (`coverage_monotone`).
-/
import SmartHome.Mqtt.Native.Agreement
import SmartHome.Mqtt.Native.Emission

namespace SmartHome.Mqtt.Native.Threads

open Verif Verif.Program Verif.Protocol

/-! ## What a callback knows of itself -/

theorem stable_fresh (i : ℕ) : protocol.Stable i (Fresh i) := by
  intro j hj s s' _ _ hact h
  have hact : Act j s s' := hact
  refine ⟨fun hin => h.inside ((hact.inside i (Ne.symm hj)).1 hin), fun hh => ?_, fun r hr hri => ?_⟩
  · rcases hact.holder with hsame | ⟨-, hown⟩ | ⟨-, hnone⟩
    · exact h.holder (hsame.symm.trans hh)
    · exact hj (Option.some.inj (hown.symm.trans hh))
    · rw [hnone] at hh
      cases hh
  · obtain ⟨new, hnew, hlater⟩ := hact.readings
    rw [hnew, List.mem_append] at hr
    rcases hr with hr | hr
    · exact h.readings r hr hri
    · exact hj ((hlater r hr).1.symm.trans hri)

/-- The callback has not read the clock yet. -/
def Arrived (i : ℕ) (s : Shared) : Prop := i ∈ s.inside ∧ ∀ r ∈ s.readings, r.thread ≠ i

/-- The callback has read the clock. -/
structure Observed (i : ℕ) (kind : Option Kind) (occurred : Option ℕ) (s : Shared) : Prop where
  inside : i ∈ s.inside
  readings : ∀ r ∈ s.readings, r.thread = i → kind = some r.kind
  time : ∀ t ∈ occurred, t ≤ uint64Max ∧ t ≤ s.clock ∧ ∀ b ∈ s.plugin.started, b ≤ t

/-- The callback's event has been taken into account. -/
def Accounted (i : ℕ) (s : Shared) : Prop :=
  i ∈ s.inside ∧ ∀ r ∈ s.readings, r.thread = i → Settled s r

section
variable {i : ℕ} {s : Shared} {kind : Option Kind} {occurred : Option ℕ} {X : Shared → Prop}

/-- The readings of a thread are its own. -/
theorem Act.own {j : ℕ} {s' : Shared} (h : Act j s s')
    (hij : j = i → s'.readings = s.readings ∧ s'.inside = s.inside ∧ s'.closed = s.closed) :
    (i ∈ s.inside → i ∈ s'.inside) ∧ ∀ r ∈ s'.readings, r.thread = i → r ∈ s.readings := by
  by_cases hj : j = i
  · obtain ⟨hr, hi, -⟩ := hij hj
    rw [hr, hi]
    exact ⟨id, fun r hr' _ => hr'⟩
  · obtain ⟨new, hnew, hlater⟩ := h.readings
    refine ⟨(h.inside i (Ne.symm hj)).2, fun r hr hri => ?_⟩
    rw [hnew, List.mem_append] at hr
    exact hr.resolve_right fun hr => hj ((hlater r hr).1.symm.trans hri)

theorem rider_arrived : Rider i (Arrived i) := by
  rintro j s s' hact hij ⟨hin, hr⟩
  obtain ⟨h1, h2⟩ := hact.own hij
  exact ⟨h1 hin, fun r hr' hri => hr r (h2 r hr' hri) hri⟩

theorem rider_observed : Rider i (Observed i kind occurred) := by
  intro j s s' hact hij h
  obtain ⟨h1, h2⟩ := hact.own hij
  refine ⟨h1 h.inside, fun r hr hri => h.readings r (h2 r hr hri) hri, fun t ht => ?_⟩
  obtain ⟨hmax, hle, hst⟩ := h.time t ht
  rw [hact.started]
  exact ⟨hmax, hle.trans hact.clock, hst⟩

theorem rider_accounted : Rider i (Accounted i) := by
  rintro j s s' hact hij ⟨hin, hr⟩
  obtain ⟨h1, h2⟩ := hact.own hij
  exact ⟨h1 hin, fun r hr' hri => (hr r (h2 r hr' hri) hri).act hact⟩

theorem Arrived.accounted (h : Arrived i s) : Accounted i s :=
  ⟨h.1, fun r hr hri => absurd hri (h.2 r hr)⟩

theorem Observed.accounted (h : Observed i kind occurred s)
    (hk : ∀ k, kind = some k → s.plugin.disabled = true ∨ Booked s i k) : Accounted i s := by
  refine ⟨h.inside, fun r hr hri => ?_⟩
  subst hri
  exact hk r.kind (h.readings r hr rfl)

/-! ## The lock -/

/-- A thread that takes the lock at a time `t`. -/
def Task.take (i : ℕ) (X : Shared → Prop) (hX : Rider i X) (t : ℕ) : Task := ⟨i, X, hX, false, t, false⟩

theorem acts_tryLock (hX : Rider i X) {P : ℕ → Prop} (hP : ∀ s, X s → P s.clock) :
    Acts i X (tryLock i) fun free s =>
      (free = true → ∃ t, P t ∧ Hold (.take i X hX t) 0 s) ∧ (free = false → X s) := by
  refine triple_access hX.stable fun s hs hx => ?_
  obtain ⟨hinv, hact⟩ := Inv.tryLock hs i
  refine ⟨hinv, hact, fun hfree => ⟨s.clock, hP s hx, ?_⟩, fun hfree => ?_⟩
  · have hnone : s.holder = none := Option.isNone_iff_eq_none.1 hfree
    have heq : s.tryLock i = { s with holder := some i } := if_pos hfree
    have hx' : X (s.tryLock i) := by
      refine hX i s _ hact (fun _ => ?_) hx
      rw [heq]
      exact ⟨rfl, rfl, rfl⟩
    rw [heq] at hx' ⊢
    exact ⟨rfl, hx', le_rfl, (Inv.kept hs hnone).mono le_rfl ⟨rfl, rfl, rfl⟩ id id id,
      fun he => Bool.noConfusion he⟩
  · have heq : s.tryLock i = s := if_neg (by simp [hfree])
    rw [heq]
    exact hx

/-- The lock is given back. -/
theorem acts_unlock (hX : Rider i X) {final : Bool} (hfinal : final = false) :
    Acts i (Rest i X final) unlock fun _ => X := by
  refine triple_access ?_ fun s hs h => ?_
  · intro j hj s s' hs hs' hact h
    have hact : Act j s s' := hact
    have hg : SameGuarded s s' := by
      refine hact.guarded fun hs => ?_
      rw [h.holder] at hs
      cases hs
      exact hj rfl
    exact ⟨hact.holds hj h.holder, hX.stable j hj s s' hs hs' hact h.knows,
      fun hf => (h.kept hf).mono hact.clock hg hact.disabled hact.late hact.wrapped⟩
  · obtain ⟨hinv, hact⟩ := Inv.unlock hs h.holder (h.kept hfinal)
    exact ⟨hinv, hact, hX i s _ hact (fun _ => ⟨rfl, rfl, rfl⟩) h.knows⟩

/-! ## A callback that finds the lock taken -/

theorem acts_incrementDrop (k : Kind) : Acts i (Observed i (some k) occurred) (incrementDrop i k)
    fun _ => Accounted i := by
  refine triple_bind (B := fun _ => Accounted i) ?_ fun old => ?_
  · refine triple_access rider_observed.stable fun s hs h => ?_
    obtain ⟨hinv, hact, hbook⟩ := Inv.incrementDrop hs i k
    refine ⟨hinv, hact, (rider_observed i s _ hact (fun _ => ⟨rfl, rfl, rfl⟩) h).accounted ?_⟩
    intro k' hk
    obtain rfl := Option.some.inj hk
    exact .inr hbook
  · split_ifs
    · exact (acts_disable rider_accounted).mono (fun _ h => h) fun _ _ h => h.1
    · exact triple_pure fun _ h => h

theorem acts_incrementFaults (hX : Rider i X) : Acts i X incrementFaults fun _ => X := by
  refine triple_bind (acts_free (fun p => { p with pendingFaults := (p.pendingFaults + 1) % 2 ^ 64 })
    (fun _ => rfl) (fun _ => rfl) (fun _ => id) hX) fun old => ?_
  split_ifs
  · exact (acts_disable hX).mono (fun _ h => h) fun _ _ h => h.1
  · exact triple_pure fun _ h => h

theorem acts_missed : Acts i (Observed i kind occurred) (missed i kind occurred)
    fun _ => Accounted i := by
  have hfaults : Acts i (Accounted i) (do if occurred.isNone then incrementFaults)
      fun _ => Accounted i := by
    split_ifs
    · exact acts_incrementFaults rider_accounted
    · exact triple_pure fun _ h => h
  cases kind with
  | none =>
    refine triple_bind (B := fun _ => Accounted i) (triple_pure fun s h => ?_) fun _ => hfaults
    exact h.accounted fun k hk => by cases hk
  | some k => exact triple_bind (acts_incrementDrop k) fun _ => hfaults

/-! ## A callback with the lock -/

section
variable {p q : Plugin}

/-- What counting an event does to the totals and the ring. -/
theorem countEvent_ok {k : Kind} (h : p.countEvent (some k) occurred = .ok q) :
    (∀ j, q.total j = p.total j + if j = k then 1 else 0) ∧
      (∀ j, q.dropped j = p.dropped j + if j = k ∧ p.eventRow k occurred = none then 1 else 0) ∧
      q.pending = p.pending ++ (p.eventRow k occurred).toList ∧ q.final = p.final := by
  simp only [Plugin.countEvent, bind_ok, Plugin.addEventSeq, Plugin.addTotal, Plugin.add_ok] at h
  obtain ⟨r, hr, _, ⟨-, rfl⟩, _, ⟨-, rfl⟩, h⟩ := h
  have hfields : r.total = p.total ∧ r.dropped = p.dropped ∧ r.pending = p.pending ∧
      r.eventSeq = p.eventSeq ∧ r.final = p.final := by
    unfold Plugin.countFault Plugin.addClockFaults at hr
    split_ifs at hr
    · obtain ⟨-, rfl⟩ := Plugin.add_ok.1 hr
      exact ⟨rfl, rfl, rfl, rfl, rfl⟩
    · cases hr
      exact ⟨rfl, rfl, rfl, rfl, rfl⟩
  obtain ⟨htot, hdrop, hring, hseq, hfin⟩ := hfields
  have hone : ∀ (t : Kind → ℕ) j, Function.update t k (t k + 1) j = t j + if j = k then 1 else 0 := by
    intro t j
    by_cases hj : j = k
    · subst hj; simp
    · simp [hj]
  unfold Plugin.eventRow
  rw [← hring, ← hseq, ← htot, ← hdrop]
  by_cases hcap : r.pending.length < capacity
  · rw [if_pos hcap] at h
    cases h
    refine ⟨hone _, fun j => ?_, by simp [hcap], hfin⟩
    simp [hcap]
  · rw [if_neg hcap, Plugin.addDropped, Plugin.add_ok] at h
    obtain ⟨-, rfl⟩ := h
    refine ⟨hone _, fun j => ?_, by simp [hcap], hfin⟩
    simpa [hcap] using hone r.dropped j

/-- A tick is not counted. -/
theorem countTick_ok (h : p.countEvent none occurred = .ok q) : Advance p q ∧ q.dropped = p.dropped := by
  simp only [Plugin.countEvent, bind_ok] at h
  obtain ⟨r, hr, h⟩ := h
  obtain rfl := Except.ok.inj h
  refine ⟨(countFault_ok hr).1, ?_⟩
  unfold Plugin.countFault at hr
  split_ifs at hr
  · exact addClockFaults_dropped hr
  · cases hr
    rfl

/-- The event is in the totals, and its row in the ring. -/
theorem Accounts.count {s : Shared} {k : Kind} (h : Accounts 0 s)
    (hq : s.plugin.countEvent (some k) occurred = .ok q) :
    Accounts 0 { s with
      plugin := q
      counted := s.counted ++ [⟨i, k, s.plugin.eventRow k occurred⟩] } := by
  obtain ⟨htot, hdrop, hring, -⟩ := countEvent_ok hq
  refine ⟨fun hw j => ?_, fun hw j => ?_, fun e he r hr => ?_⟩
  · have h1 := h.total hw j
    simp only [Pi.zero_apply, add_zero, List.countP_append, List.countP_singleton, htot j,
      decide_eq_true_eq] at h1 ⊢
    rw [h1]
    simp only [eq_comm]
  · have h1 := h.dropped hw j
    simp only [Pi.zero_apply, add_zero, List.countP_append, List.countP_singleton, hdrop j,
      decide_eq_true_eq] at h1 ⊢
    rw [h1]
    simp only [eq_comm]
  · rcases List.mem_append.1 he with he | he
    · obtain ⟨h1, h2⟩ := h.rows e he r hr
      exact ⟨h1, h2.imp (fun hp => hring ▸ List.mem_append_left _ hp) id⟩
    · rw [List.mem_singleton] at he
      subst he
      have hrow : s.plugin.eventRow k occurred = some r := hr
      refine ⟨?_, .inl ?_⟩
      · unfold Plugin.eventRow at hrow
        split_ifs at hrow
        cases hrow
        rfl
      · rw [hring, hrow]
        exact List.mem_append_right _ (List.mem_singleton_self _)

end

/-- The holder of the lock counts its own event. -/
theorem acts_countEvent {t : ℕ} (ht : ∀ u ∈ occurred, u ≤ t) :
    Acts i (Hold (.take i (Observed i kind occurred) rider_observed t) 0) (countEvent i kind occurred)
      fun b s => (b = true → Hold (.take i (Accounted i) rider_accounted t) 0 s) ∧
        (b = false → Rest i (Accounted i) false s) := by
  refine triple_access (stable_hold (.take i _ rider_observed t) 0) fun s hs h => ?_
  have hholder : s.holder = some i := h.holder
  obtain ⟨hinv, hact⟩ := Inv.countEvent hs hholder kind occurred
  refine ⟨hinv, hact, ?_⟩
  have hplain := tame_countEvent (p := s.plugin) kind occurred
  unfold Shared.countEvent at hinv hact ⊢
  cases hx : s.plugin.countEvent kind occurred with
  | error q =>
    have hd : q.disabled = true := disabling_countEvent _ kind occurred q hx
    refine ⟨fun hb => Bool.noConfusion hb, fun _ => ⟨h.holder, ?_, fun _ => kept_disabled hd⟩⟩
    exact ⟨h.knows.inside, fun _ _ _ => .inl hd⟩
  | ok q =>
    simp only [hx] at hinv hact
    refine ⟨fun _ => ⟨h.holder, ?_, h.time, fun hd => ?_, fun he => Bool.noConfusion he⟩,
      fun hb => Bool.noConfusion hb⟩
    · have hobs := rider_observed i s _ hact (fun _ => ⟨rfl, rfl, rfl⟩) h.knows
      refine hobs.accounted fun k hk => .inr (.inr ?_)
      subst hk
      exact ⟨_, List.mem_append_right _ (List.mem_singleton_self _), rfl, rfl⟩
    · have hd : s.plugin.disabled = false :=
        Bool.eq_false_iff.2 fun h1 => Bool.eq_false_iff.1 hd ((hplain q (.inl hx)).disabled h1)
      obtain ⟨ha, hfin, hlive⟩ := h.kept hd
      have hstamp : ∀ u ∈ occurred, u ≤ t ∧ u ≤ uint64Max ∧ ∀ b ∈ s.plugin.started, b ≤ u :=
        fun u hu => ⟨ht u hu, (h.knows.time u hu).1, (h.knows.time u hu).2.2⟩
      cases kind with
      | none =>
        obtain ⟨hadv, hdrop⟩ := countTick_ok hx
        have hk : Kept 0 false t (s.plug q) := h.kept.advance hadv fun k => by rw [hdrop]
        have heq : ({ s with plugin := q, counted := s.counted ++ [] } : Shared) = s.plug q := by
          rw [List.append_nil]
          rfl
        have hdq : (s.plug q).plugin.disabled = false := by assumption
        simp only [Option.map_none, Option.toList_none]
        rw [heq]
        exact hk hdq
      | some k =>
        obtain ⟨-, -, -, hsame⟩ := countEvent_ok hx
        exact ⟨ha.count hx, hsame.trans hfin, fun hl => ((hlive hl).countEvent le_rfl hstamp hx).1⟩

theorem acts_locked {t : ℕ} (ht : ∀ u ∈ occurred, u ≤ t) :
    Acts i (Hold (.take i (Observed i kind occurred) rider_observed t) 0) (locked i kind occurred)
      fun _ => Rest i (Accounted i) false := by
  refine triple_bind (acts_drainDrops (τ := .take i (Observed i kind occurred) rider_observed t))
    fun drained => ?_
  cases drained with
  | false =>
    refine triple_pure fun s h => ?_
    obtain ⟨hhold, hd⟩ := h
    exact ⟨hhold.holder, ⟨hhold.knows.inside, fun _ _ _ => .inl (hd rfl)⟩, hhold.rest.kept⟩
  | true =>
    refine Triple.mono (triple_bind (acts_countEvent ht) fun counted => ?_) (fun s h => h.1) fun _ _ h => h
    cases counted with
    | false => exact triple_pure fun s h => h.2 rfl
    | true =>
      have hemit := acts_emitFrame (τ := .take i (Accounted i) rider_accounted t) false 1
        fun s h => .inr ⟨rfl, h⟩
      exact hemit.mono (fun s h => h.1 rfl) fun _ _ h => h

theorem acts_collect : Acts i (Arrived i) (collect i kind) fun _ => Accounted i := by
  refine triple_bind (B := fun o => Observed i kind o) ?_ fun occurred => ?_
  · refine acts_clockNs rider_arrived.stable (fun s d h => rider_arrived.tick d h) ?_ ?_
    · intro s h
      exact ⟨h.1, fun r hr hri => absurd hri (h.2 r hr), fun t ht => by cases ht⟩
    · intro s hs h hle
      obtain ⟨hinv, hact⟩ := Inv.noteEvent hs h.1 kind
      refine ⟨hinv, hact, h.1, fun r hr hri => ?_, fun t ht => ?_⟩
      · rcases List.mem_append.1 hr with hr | hr
        · exact absurd hri (h.2 r hr)
        · obtain ⟨k, hk, rfl⟩ := Option.map_eq_some_iff.1 (Option.mem_toList.1 hr)
          exact hk
      · obtain rfl := Option.some.inj ht
        exact ⟨hle, le_rfl, Inv.started hinv⟩
  · refine triple_bind (acts_tryLock (P := fun t => ∀ u ∈ occurred, u ≤ t) rider_observed
      fun s h u hu => (h.time u hu).2.1) fun free => ?_
    cases free with
    | false => exact acts_missed.mono (fun s h => h.2 rfl) fun _ _ h => h
    | true =>
      refine Triple.mono (triple_exists fun t => triple_and fun ht => ?_) (fun s h => h.1 rfl)
        fun _ _ h => h
      exact triple_bind (acts_locked ht) fun _ => acts_unlock rider_accounted rfl

theorem acts_observe (event : Event) : Acts i (Arrived i) (observe i event) fun _ => Accounted i := by
  have hleave : Acts i (Arrived i) (pure () : Action Unit) fun _ => Accounted i :=
    triple_pure fun s h => h.accounted
  refine triple_bind (acts_look rider_arrived.stable) fun off => ?_
  cases off with
  | true => exact hleave
  | false =>
    refine triple_bind (acts_look rider_arrived.stable) fun active => ?_
    cases active with
    | false => exact hleave
    | true =>
      cases event with
      | other => exact hleave
      | observed k => exact acts_collect
      | tick =>
        refine triple_bind triple_ask fun allowed => ?_
        cases allowed with
        | true => exact acts_collect
        | false => exact (acts_disable rider_arrived).mono (fun _ h => h) fun _ _ h => h.1.accounted

/-- `metadata_callback` -/
theorem acts_metadataCallback (i : ℕ) (event : Event) :
    Acts i (Fresh i) (metadataCallback i event) fun _ _ => True := by
  refine triple_bind (B := fun _ => Arrived i) ?_ fun _ => ?_
  · refine triple_access (stable_fresh i) fun s hs h => ?_
    obtain ⟨hinv, hact⟩ := Inv.enter hs h.inside
    exact ⟨hinv, hact, Finset.mem_insert_self _ _, h.readings⟩
  · refine triple_bind (acts_observe event) fun _ => ?_
    refine triple_access rider_accounted.stable fun s hs h => ?_
    obtain ⟨hinv, hact⟩ := Inv.leave hs h.1 h.2
    exact ⟨hinv, hact, trivial⟩

end

/-! ## The broker's own thread -/

section
variable {s : Shared} {close : Option ℕ}

/-- What the end has read from the clock. -/
def Closing (close : Option ℕ) (s : Shared) : Prop :=
  ∀ b ∈ close, s.closed = some b ∧ b ≤ s.clock ∧ ∀ a ∈ s.plugin.started, a ≤ b

theorem rider_closing : Rider 0 (Closing close) := by
  intro j s s' hact hij h b hb
  obtain ⟨h1, h2, h3⟩ := h b hb
  refine ⟨?_, h2.trans hact.clock, hact.started ▸ h3⟩
  rcases hact.closed with hc | ⟨hj, -⟩
  · exact hc.trans h1
  · exact (hij hj).2.2.trans h1

/-- `mosquitto_plugin_init` -/
theorem acts_mosquittoPluginInit : Acts 0 (fun _ => True) mosquittoPluginInit fun _ _ => True := by
  refine triple_bind (acts_free (fun p => { p with active := true }) (fun _ => rfl) (fun _ => rfl)
    (fun _ => id) rider_true) fun _ => ?_
  refine triple_bind (acts_tryLock (P := fun _ => True) rider_true fun _ _ => trivial) fun free => ?_
  cases free with
  | false => exact triple_pure fun _ _ => trivial
  | true =>
    refine Triple.mono (triple_exists fun t => triple_and fun _ => ?_) (fun s h => h.1 rfl) fun _ _ h => h
    have hdrain := acts_drainDrops (τ := .take 0 (fun _ => True) rider_true t)
    have hdrain := triple_discard (hdrain.mono (fun _ h => h) fun _ _ h => h.1)
    refine triple_bind hdrain fun _ => ?_
    refine triple_bind (acts_emitFrame true 0 fun _ _ => .inl rfl) fun _ => ?_
    exact acts_unlock rider_true rfl

/-- The marks of the final frame. -/
theorem acts_closing {t : ℕ} (ht : ∀ b ∈ close, b ≤ t) :
    Acts 0 (Hold (.take 0 (Closing close) rider_closing t) 0)
      (proceed fun p => (p.closing close).countFault close)
      fun _ => Hold ⟨0, Closing close, rider_closing, true, t, false⟩ 0 := by
  refine triple_access (stable_hold (.take 0 _ rider_closing t) 0) fun s hs h => ?_
  have hclosing : Plain s.plugin (s.plugin.closing close) := ⟨id, rfl, rfl, fun hf => by cases hf⟩
  have htame : Plain s.plugin (settle ((s.plugin.closing close).countFault close)) :=
    hclosing.trans (tame_countFault close).settle
  obtain ⟨hinv, hact⟩ := Inv.plug hs h.holder htame
  have hclosed : Kept 0 true t (s.plug (s.plugin.closing close)) := by
    intro hd
    obtain ⟨ha, -, hlive⟩ := h.kept hd
    refine ⟨⟨ha.total, ha.dropped, ha.rows⟩, rfl, fun hl => ?_⟩
    have hlive : Live s.log t s.plugin := hlive hl
    refine hlive.closing le_rfl fun b hb => ?_
    obtain ⟨hclosed, -, hstart⟩ := h.knows b hb
    refine ⟨fun a ha' => ?_, ht b hb, hstart⟩
    obtain ⟨d, hdm, rfl⟩ := List.mem_map.1 ha'
    exact Inv.order hs hl b hclosed d hdm (hlive.since _ ha').opened
  have hkept : Kept 0 true t (s.plug (settle ((s.plugin.closing close).countFault close))) := by
    cases hx : (s.plugin.closing close).countFault close with
    | error q => exact kept_disabled (disabling_countFault q hx)
    | ok q =>
      have hdrop : q.dropped = (s.plugin.closing close).dropped := by
        unfold Plugin.countFault at hx
        split_ifs at hx
        · exact addClockFaults_dropped hx
        · cases hx
          rfl
      exact hclosed.advance (countFault_ok hx).1 fun k => congrArg (· + 0) (congrFun hdrop k)
  exact ⟨hinv, hact, h.holder, rider_closing _ _ _ hact (fun _ => ⟨rfl, rfl, rfl⟩) h.knows, h.time,
    hkept, fun he => Bool.noConfusion he⟩

/-- The final frame. -/
theorem acts_finish {t : ℕ} (ht : ∀ b ∈ close, b ≤ t) (unregistered : Bool) :
    Acts 0 (Hold (.take 0 (Closing close) rider_closing t) 0) (finish unregistered close)
      fun _ s => s.holder = some 0 := by
  cases unregistered with
  | false => exact triple_pure fun s h => h.holder
  | true =>
    refine triple_bind (acts_look (stable_hold (.take 0 _ rider_closing t) 0)) fun callbacks => ?_
    split_ifs
    · refine triple_bind (triple_discard (acts_closing ht)) fun _ => ?_
      refine triple_bind (acts_drainDrops (τ := ⟨0, Closing close, rider_closing, true, t, false⟩))
        fun drained => ?_
      cases drained with
      | false => exact triple_pure fun s h => h.1.holder
      | true =>
        have hemit := acts_emitFrame (τ := ⟨0, Closing close, rider_closing, true, t, false⟩) true 0
          fun _ _ => .inl rfl
        exact hemit.mono (fun s h => h.1) fun _ s h => h.holder
    · exact triple_pure fun s h => h.holder

/-- `mosquitto_plugin_cleanup` -/
theorem acts_mosquittoPluginCleanup : Acts 0 (fun _ => True) mosquittoPluginCleanup fun _ _ => True := by
  refine triple_bind (B := fun o => Closing o) ?_ fun close => ?_
  · refine acts_clockNs (stable_const True) (fun _ _ h => h) ?_ ?_
    · intro s _ b hb
      cases hb
    · intro s hs _ _
      obtain ⟨hinv, hact⟩ := Inv.noteClose hs
      refine ⟨hinv, hact, fun b hb => ?_⟩
      obtain rfl := Option.some.inj hb
      exact ⟨rfl, le_rfl, Inv.started hinv⟩
  refine triple_bind (acts_free (fun p => { p with active := false }) (fun _ => rfl) (fun _ => rfl)
    (fun _ => id) rider_closing) fun _ => ?_
  refine triple_bind triple_ask fun unregistered => ?_
  refine triple_bind (acts_tryLock (P := fun t => ∀ b ∈ close, b ≤ t) rider_closing
    fun s h b hb => (h b hb).2.1) fun free => ?_
  cases free with
  | false => exact (acts_disable rider_closing).mono (fun s h => h.2 rfl) fun _ _ _ => trivial
  | true =>
    refine Triple.mono (triple_exists fun t => triple_and fun ht => ?_) (fun s h => h.1 rfl) fun _ _ h => h
    have hheld : protocol.Stable 0 fun s => s.holder = some 0 :=
      fun j hj s s' _ _ hact h => Act.holds hact hj h
    have hoff : protocol.Stable 0 fun s => s.holder = some 0 ∧ s.plugin.disabled = true :=
      hheld.and fun j _ s s' _ _ hact h => Act.disabled hact h
    refine triple_bind (acts_finish ht unregistered) fun _ => ?_
    refine triple_bind (B := fun _ s => s.holder = some 0 ∧ s.plugin.disabled = true) ?_ fun _ => ?_
    · refine triple_access hheld fun s hs h => ?_
      obtain ⟨hinv, hact⟩ := Inv.free (q := s.plugin.disable) hs 0 rfl rfl fun _ => rfl
      exact ⟨hinv, hact, h, rfl⟩
    refine triple_bind (B := fun _ s => s.holder = some 0 ∧ s.plugin.disabled = true) ?_ fun _ => ?_
    · refine triple_access hoff fun s hs h => ?_
      obtain ⟨hinv, hact⟩ := Inv.plug (q := { s.plugin with socketOpen := false }) hs h.1
        ⟨id, rfl, rfl, id⟩
      exact ⟨hinv, hact, h⟩
    · refine triple_access hoff fun s hs h => ?_
      obtain ⟨hinv, hact⟩ := Inv.unlock hs h.1 (kept_disabled h.2)
      exact ⟨hinv, hact, trivial⟩

end

/-! ## Runs -/

/-- The plugin before its gate is opened. -/
theorem inv_launch {source : Hex 32} {started : Option ℕ} {clock : ℕ}
    (h : ∀ b ∈ started, b ≤ clock ∧ b ≤ uint64Max) : Inv (launch source started clock) where
  callbacks := Nat.two_pow_pos 32
  entered _ := rfl
  waiting _ _ := rfl
  pending _ := Nat.two_pow_pos 64
  started b hb := (h b hb).1
  settled r hr := by cases hr
  kept _ _ := by
    refine ⟨⟨fun _ _ => rfl, fun _ _ => rfl, fun e he => by cases he⟩, rfl, fun _ => ?_⟩
    have hlive := live_launch source started fun b hb => (h b hb).2
    refine live_guarded (hlive.later ?_) rfl
    cases started with
    | none => exact Nat.zero_le _
    | some b => exact (h b rfl).1
  frames pre d post hs := by simp [launch] at hs
  covers d hd := by cases hd
  past d hd := by cases hd
  logged _ := .nil
  order _ b hb := by cases hb

/-- The invariant holds in every state that the threads reach. -/
theorem inv_reachable {w : Crew Shared Reply} (hw : machine.Reachable w) : Inv w.state := by
  refine Crew.reachable_inv (G := protocol) stable_fresh ?_ ?_ hw
  · rintro s ⟨source, started, clock, rfl, h⟩
    refine ⟨inv_launch h, fun i => ⟨Finset.notMem_empty i, fun hh => ?_, fun r hr => ?_⟩⟩
    · cases hh
    · cases hr
  · intro i p hp
    unfold Starts at hp
    split_ifs at hp with hi
    · subst hi hp
      refine Triple.mono (A := fun _ => True) ?_ (fun _ _ => trivial) fun _ _ h => h
      exact triple_bind acts_mosquittoPluginInit fun _ => acts_mosquittoPluginCleanup
    · obtain ⟨event, rfl⟩ := hp
      exact acts_metadataCallback i event

end SmartHome.Mqtt.Native.Threads
