/-
  A frame under way.  `Frontier` says what is known of the callbacks that have read a time before the
  frame's own: first nothing, then that they have been taken into account, then that they are in the
  totals; `Sendable` is what the kernel gets.
-/
import SmartHome.Mqtt.Native.Interleaved

namespace SmartHome.Mqtt.Native.Threads

open Verif Verif.Program Verif.Protocol

/-- The callback is in the totals. -/
def InTotals (s : Shared) (r : Reading) : Prop :=
  ∃ e ∈ s.counted, e.thread = r.thread ∧ e.kind = r.kind

/-- A frame whose clock shows `τ.time`: if `quiet`, every callback that has read an earlier time has
    been taken into account, and those of the classes `K` are in the totals, unless the plugin is
    disabled or a counter has wrapped around. -/
structure Frontier (τ : Task) (quiet : Prop) (K : Kind → Prop) (s : Shared) : Prop where
  hold : Hold τ 0 s
  settled : quiet → s.wrapped = false → ∀ r ∈ s.readings, r.atNs < τ.time → Settled s r
  totals : quiet → s.wrapped = false → ∀ r ∈ s.readings, r.atNs < τ.time → K r.kind →
    s.plugin.disabled = true ∨ InTotals s r

section
variable {i : ℕ} {τ : Task} {s s' : Shared} {quiet : Prop} {K : Kind → Prop} {f : Sent}

theorem Hold.same {j : ℕ} {owed : Kind → ℕ} (h : Hold τ owed s) (hact : Act j s s')
    (hj : j ≠ τ.thread) : SameGuarded s s' := by
  refine hact.guarded fun hs => ?_
  rw [h.holder] at hs
  cases hs
  exact hj rfl

theorem Act.notWrapped {j : ℕ} (h : Act j s s') (hs : s'.wrapped = false) : s.wrapped = false :=
  Bool.eq_false_iff.2 fun h1 => by simp [h.wrapped h1] at hs

/-- An earlier reading is not a new one. -/
theorem Act.reading {j t : ℕ} (h : Act j s s') (ht : t ≤ s.clock) {r : Reading} (hr : r ∈ s'.readings)
    (hlt : r.atNs < t) : r ∈ s.readings := by
  obtain ⟨new, hnew, hlater⟩ := h.readings
  rw [hnew, List.mem_append] at hr
  exact hr.resolve_right fun hr => absurd (ht.trans (hlater r hr).2) (not_le.2 hlt)

theorem stable_frontier : protocol.Stable τ.thread (Frontier τ quiet K) := by
  intro j hj s s' hs hs' hact h
  have hact : Act j s s' := hact
  refine ⟨stable_hold τ 0 j hj s s' hs hs' hact h.hold, fun hq hw r hr hlt => ?_,
    fun hq hw r hr hlt hk => ?_⟩
  · have hr := hact.reading h.hold.time hr hlt
    exact (h.settled hq (hact.notWrapped hw) r hr hlt).act hact
  · have hr := hact.reading h.hold.time hr hlt
    refine (h.totals hq (hact.notWrapped hw) r hr hlt hk).imp hact.disabled fun ht => ?_
    rw [InTotals, (h.hold.same hact hj).counted]
    exact ht

/-! ## The callbacks in progress -/

/-- What a thread that holds the lock knows of itself: it is no callback, or a callback in progress
    whose own event has been counted. -/
def Caller (i callers : ℕ) (s : Shared) : Prop :=
  callers = 0 ∨ callers = 1 ∧ i ∈ s.inside ∧ ∀ r ∈ s.readings, r.thread = i → Settled s r

/-- If no other callback is in progress, all that have read the clock have been taken into account. -/
theorem Caller.settled {callers : ℕ} (h : Caller i callers s) (hs : Inv s) (hw : s.wrapped = false)
    (hc : s.callbacks = callers) {r : Reading} (hr : r ∈ s.readings) : Settled s r := by
  have hcard : s.inside.card = callers := (hs.entered hw).symm.trans hc
  rcases hs.settled r hr with hin | hset
  · rcases h with h0 | ⟨h1, hi, hown⟩
    · rw [h0, Finset.card_eq_zero] at hcard
      rw [hcard] at hin
      exact absurd hin (Finset.notMem_empty _)
    · obtain ⟨a, ha⟩ := Finset.card_eq_one.1 (hcard.trans h1)
      rw [ha, Finset.mem_singleton] at hin hi
      exact hown r hr (hin.trans hi.symm)
  · exact hset

theorem acts_callbacks {callers : ℕ} (hcall : ∀ s, τ.knows s → Caller τ.thread callers s) :
    Acts τ.thread (Hold τ 0) (load Shared.callbacks)
      fun c => Frontier τ (c = callers) fun _ => False :=
  acts_load (stable_hold τ 0) fun s hs h => ⟨h,
    fun hc hw _ hr _ => (hcall s h.knows).settled hs hw hc hr, fun _ _ _ _ _ hk => hk.elim⟩

/-! ## The pending counts -/

/-- A class without pending events. -/
theorem acts_pendingDrop (k : Kind) : Acts τ.thread (Frontier τ quiet K)
    (load fun s => s.plugin.pendingDrop k)
    fun n => Frontier τ (quiet ∧ n = 0) fun k' => K k' ∨ k' = k := by
  refine acts_load stable_frontier fun s hs h => ?_
  refine ⟨h.hold, fun hq => h.settled hq.1, fun hq hw r hr hlt hk => ?_⟩
  rcases hk with hk | hk
  · exact h.totals hq.1 hw r hr hlt hk
  · have hnone : s.waiting r.kind = [] := by
      rw [← List.length_eq_zero_iff, ← hs.waiting hw, hk]
      exact hq.2
    refine (h.settled hq.1 hw r hr hlt).imp id fun hb => hb.resolve_left ?_
    rw [hnone]
    exact List.not_mem_nil

theorem Frontier.mono {quiet' : Prop} {K' : Kind → Prop} (h : Frontier τ quiet K s)
    (hq : quiet' → quiet) (hK : quiet' → ∀ k, K' k → K k) : Frontier τ quiet' K' s :=
  ⟨h.hold, fun hq' => h.settled (hq hq'), fun hq' hw r hr hlt hk =>
    h.totals (hq hq') hw r hr hlt (hK hq' _ hk)⟩

theorem acts_dropsPending : ∀ (ks : List Kind) {quiet : Prop} {K : Kind → Prop},
    Acts τ.thread (Frontier τ quiet K) (dropsPending ks)
      fun b => Frontier τ (quiet ∧ b = false) fun k => K k ∨ k ∈ ks
  | [], quiet, K => by
    refine triple_pure fun s h => h.mono And.left fun _ k hk => ?_
    exact hk.resolve_right List.not_mem_nil
  | k :: ks, quiet, K => by
    refine triple_bind (acts_pendingDrop k) fun n => ?_
    refine triple_bind (acts_dropsPending ks) fun more => triple_pure fun s h => ?_
    have hsplit : (decide (n ≠ 0) || more) = false → n = 0 ∧ more = false := by
      simp only [Bool.or_eq_false_iff, decide_eq_false_iff_not, not_not, imp_self]
    refine h.mono (fun hq => ⟨⟨hq.1, (hsplit hq.2).1⟩, (hsplit hq.2).2⟩) fun _ j hj => ?_
    rcases hj with hj | hj
    · exact .inl (.inl hj)
    · rcases List.mem_cons.1 hj with hj | hj
      · exact .inl (.inr hj)
      · exact .inr hj

/-! ## The frame in the buffer -/

/-- A frame that has been written, whether or not the plugin is still enabled. -/
structure Written (τ : Task) (f : Sent) (s : Shared) : Prop where
  hold : Hold τ 0 s
  text : Textual f
  plugin : guardedPlugin f.plugin = guardedPlugin s.plugin
  attempt : f.plugin.lastAttempt = τ.time
  stamp : ∀ c ∈ f.coveredBeforeNs, c ≤ τ.time
  covers : f.coveredBeforeNs.isSome → s.wrapped = false → ∀ r ∈ s.readings, r.atNs < τ.time →
    s.plugin.disabled = true ∨ InTotals s r
  recorded : s.plugin.disabled = false → s.late = false → Recorded s.log f

theorem stable_written : protocol.Stable τ.thread (Written τ f) := by
  intro j hj s s' hs hs' hact h
  have hact : Act j s s' := hact
  have hg := h.hold.same hact hj
  refine ⟨stable_hold τ 0 j hj s s' hs hs' hact h.hold, h.text, h.plugin.trans hg.plugin.symm,
    h.attempt, h.stamp, fun hc hw r hr hlt => ?_, fun hd hl => ?_⟩
  · have hr := hact.reading h.hold.time hr hlt
    refine (h.covers hc (hact.notWrapped hw) r hr hlt).imp hact.disabled fun ht => ?_
    rw [InTotals, hg.counted]
    exact ht
  · have hd : s.plugin.disabled = false :=
      Bool.eq_false_iff.2 fun h1 => Bool.eq_false_iff.1 hd (hact.disabled h1)
    rw [Shared.log, hg.sent]
    exact h.recorded hd (hact.notLate hl)

theorem frontier_spec {p : Plugin} {covered : Bool} {now c : ℕ} (h : c ∈ p.frontier covered now) :
    covered = true ∧ c ≤ now ∧ (p.final = false → c = now) ∧ (p.final = true → c ∈ p.closeBefore) := by
  unfold Plugin.frontier at h
  split_ifs at h with hc hf
  · obtain ⟨h1, h2⟩ := Option.filter_eq_some_iff.1 h
    refine ⟨hc, by simpa using h2, fun hf' => ?_, fun _ => h1⟩
    rw [hf] at hf'
    cases hf'
  · cases h
    exact ⟨hc, le_rfl, fun _ => rfl, fun hf' => absurd hf' hf⟩
  · cases h

/-- The stamp of a live plugin lies after the frames before it. -/
theorem live_frontier {sent : List Sent} {now c : ℕ} {p : Plugin} (h : Live sent now p) {covered : Bool}
    (hc : c ∈ p.frontier covered now) :
    c ≤ now ∧ (∀ b ∈ p.started, b ≤ c) ∧ ∀ a ∈ sent, a.plugin.lastAttempt ≤ c := by
  obtain ⟨-, hle, hopen, hfinal⟩ := frontier_spec hc
  cases hf : p.final with
  | true =>
    obtain ⟨h1, -, h3⟩ := h.close hf c (hfinal hf)
    exact ⟨hle, h3, h1⟩
  | false =>
    obtain rfl := hopen hf
    exact ⟨le_rfl, h.started, fun a ha => (h.since a ha).attempt.trans h.attempt⟩

/-- Either the frame is written, or the plugin is disabled. -/
theorem prepare_cases (p : Plugin) (covered : Bool) (now : ℕ) :
    (p.prepare covered now = (({ p with lastAttempt := now } : Plugin).disable, none)) ∨
      ∃ buffer, p.frameSeq ≠ uint64Max ∧
        ({ p with lastAttempt := now } : Plugin).text (p.frontier covered now) now = some buffer ∧
        p.prepare covered now = ({ p with lastAttempt := now },
          some ⟨{ p with lastAttempt := now }, p.frontier covered now, ascii buffer⟩) := by
  unfold Plugin.prepare
  by_cases hroom : p.frameSeq = uint64Max
  · exact .inl (if_pos hroom)
  · simp only [if_neg hroom]
    cases htext : ({ p with lastAttempt := now } : Plugin).text (p.frontier covered now) now with
    | none => exact .inl rfl
    | some buffer => exact .inr ⟨buffer, hroom, rfl, rfl⟩

theorem plain_prepare (p : Plugin) (covered : Bool) (now : ℕ) : Plain p (p.prepare covered now).1 := by
  rcases prepare_cases p covered now with h | ⟨buffer, -, -, h⟩
  · rw [h]
    exact ⟨fun _ => rfl, rfl, rfl, id⟩
  · rw [h]
    exact ⟨id, rfl, rfl, id⟩

theorem acts_prepare {covered : Bool} (hnow : τ.time ≤ uint64Max) (hcov : covered = true → quiet) :
    Acts τ.thread (Frontier τ quiet fun _ => True) (prepare covered τ.time)
      fun o s => (o = none → Hold τ 0 s) ∧ ∀ f ∈ o, Written τ f s := by
  refine triple_access stable_frontier fun s hs h => ?_
  have hplain := plain_prepare s.plugin covered τ.time
  obtain ⟨hinv, hact⟩ := Inv.plug hs h.hold.holder hplain
  refine ⟨hinv, hact, ?_⟩
  rcases prepare_cases s.plugin covered τ.time with heq | ⟨buffer, hroom, htext, heq⟩
  · rw [heq] at hact hplain ⊢
    refine ⟨fun _ => h.hold.step hact rfl rfl rfl rfl rfl hplain.final (kept_disabled rfl), ?_⟩
    rintro f hf
    cases hf
  · rw [heq] at hact hplain ⊢
    refine ⟨fun hn => (by cases hn), fun f hf => ?_⟩
    obtain rfl := Option.some.inj hf
    have hkept : Kept 0 τ.final τ.time (s.plug { s.plugin with lastAttempt := τ.time }) := by
      intro hd
      obtain ⟨ha, hfin, hlive⟩ := h.hold.kept hd
      exact ⟨⟨ha.total, ha.dropped, ha.rows⟩, hfin, fun hl => (hlive hl).attempted le_rfl⟩
    refine ⟨h.hold.step hact rfl rfl rfl rfl rfl hplain.final hkept, ⟨buffer, htext, rfl⟩, rfl, rfl,
      ?_, ?_, ?_⟩
    · intro c hc
      exact (frontier_spec hc).2.1
    · intro hc hw r hr hlt
      obtain ⟨c, hc⟩ := Option.isSome_iff_exists.1 hc
      exact h.totals (hcov (frontier_spec hc).1) hw r hr hlt trivial
    · intro hd hl
      have hlive := (h.hold.kept hd).2.2 hl
      obtain ⟨buffer', htext', hrec⟩ := hlive.recorded le_rfl hnow hroom fun c hc =>
        live_frontier hlive hc
      obtain rfl := Option.some.inj (htext.symm.trans htext')
      exact hrec

/-! ## Sending it -/

/-- The plugin was still enabled when the frame was complete. -/
theorem Written.sendable (h : Written τ f s) (he : τ.emitting = true)
    (hd : s.plugin.disabled = false) : Sendable f s := by
  obtain ⟨ha, -, -⟩ := h.hold.kept hd
  refine ⟨h.text, ha, h.plugin, h.attempt.trans_le h.hold.time, fun c hc => ?_, h.recorded hd,
    fun hl hf b hb => ?_⟩
  · refine ⟨(h.stamp c hc).trans h.hold.time, fun hw r hr hlt => ?_⟩
    have hsome : f.coveredBeforeNs.isSome := by rw [Option.mem_def.1 hc]; rfl
    have hlt := hlt.trans_le (h.stamp c hc)
    refine (h.covers hsome hw r hr hlt).resolve_left fun h1 => ?_
    exact Bool.eq_false_iff.1 hd h1
  · have hg : SameGuarded (s.plug f.plugin) s := ⟨h.plugin.symm, rfl, rfl⟩
    exact h.attempt.trans_le (h.hold.order he hl (hg.final.trans hf) b hb)

theorem stable_sendable :
    protocol.Stable τ.thread fun s => Hold τ 0 s ∧ Sendable f s := by
  rintro j hj s s' hs hs' hact ⟨h, hf⟩
  have hact : Act j s s' := hact
  have hg := h.same hact hj
  refine ⟨stable_hold τ 0 j hj s s' hs hs' hact h, hf.text, hf.accounts.mono hg hact.wrapped,
    hf.plugin.trans hg.plugin.symm, hf.past.trans hact.clock, fun c hc => ?_, fun hl => ?_,
    fun hl hfin b hb => ?_⟩
  · obtain ⟨hle, hcov⟩ := hf.covers c hc
    refine ⟨hle.trans hact.clock, fun hw r hr hlt => ?_⟩
    rw [hg.counted]
    exact hcov (hact.notWrapped hw) r (hact.reading hle hr hlt) hlt
  · rw [Shared.log, hg.sent]
    exact hf.recorded (hact.notLate hl)
  · rcases hact.closed with hc | ⟨-, b', hc, hle⟩
    · exact hf.order (hact.notLate hl) hfin b (hc ▸ hb)
    · rw [hc] at hb
      cases hb
      exact hf.past.trans hle

/-- What is known after an attempt to send. -/
structure Rest (i : ℕ) (X : Shared → Prop) (final : Bool) (s : Shared) : Prop where
  holder : s.holder = some i
  knows : X s
  kept : final = false → Kept 0 false s.clock s

theorem Hold.rest (h : Hold τ 0 s) : Rest τ.thread τ.knows τ.final s where
  holder := h.holder
  knows := h.knows
  kept hf := by
    have hk := h.kept
    rw [hf] at hk
    exact hk.later h.time

theorem acts_record_sent : Acts τ.thread (fun s => Hold τ 0 s ∧ Sendable f s)
    (store (Shared.record f .sent)) fun _ => Rest τ.thread τ.knows τ.final := by
  refine triple_access stable_sendable fun s hs h => ?_
  obtain ⟨h, hf⟩ := h
  obtain ⟨hinv, hact⟩ := Inv.sent hs h.holder hf
  refine ⟨hinv, hact, h.holder, τ.rider _ _ _ hact (fun _ => ⟨rfl, rfl, rfl⟩) h.knows,
    fun hfin hd => ?_⟩
  obtain ⟨-, hopen, -⟩ := h.kept hd
  rw [hfin] at hopen
  have hg : SameGuarded (s.plug f.plugin) s := ⟨hf.plugin.symm, rfl, rfl⟩
  have hring := hg.field Plugin.pending fun _ => rfl
  refine ⟨⟨hf.accounts.total, hf.accounts.dropped, fun e he r hr => ?_⟩, hopen, fun hl => ?_⟩
  · obtain ⟨hk, hr' | ⟨d, hd, hr'⟩⟩ := hf.accounts.rows e he r hr
    · exact ⟨hk, .inr ⟨_, List.mem_append_right _ (List.mem_singleton_self _), hring ▸ hr'⟩⟩
    · exact ⟨hk, .inr ⟨d, List.mem_append_left _ hd, hr'⟩⟩
  · have hlive := Live.emitted (hf.recorded hl) (hg.final.symm.trans hopen)
    have hlog : (s.record f .sent).log = s.log ++ [f] := List.map_append
    have hnext : guardedPlugin (s.record f .sent).plugin =
        guardedPlugin { f.plugin with frameSeq := f.plugin.frameSeq + 1, pending := [] } :=
      congrArg (fun p : Plugin => { p with frameSeq := p.frameSeq + 1, pending := [] }) hf.plugin.symm
    rw [hlog]
    exact live_guarded (hlive.later hf.past) hnext

theorem acts_addSendFailures : Acts τ.thread (Hold τ 0) (proceed fun p => p.addSendFailures 1)
    fun b s => Hold τ 0 s ∧ (b = false → s.plugin.disabled = true) := by
  refine acts_proceed (fun p => tame_addSendFailures 1) (fun p => Plugin.disabling_add) ?_
  intro p q hq
  refine ⟨Plugin.addSendFailures_ok hq, fun k => ?_⟩
  simp only [Plugin.addSendFailures, Plugin.add_ok] at hq
  obtain ⟨-, rfl⟩ := hq
  rfl

theorem acts_record (outcome : Outcome) : Acts τ.thread (fun s => Hold τ 0 s ∧ Sendable f s)
    (store (Shared.record f outcome)) fun _ => Rest τ.thread τ.knows τ.final := by
  cases outcome with
  | sent => exact acts_record_sent
  | failed =>
    intro s h s' he hs'
    obtain ⟨h1, h2, h3⟩ := acts_addSendFailures s h.1 s' he hs'
    exact ⟨h1, h2, h3.1.rest⟩
  | short =>
    intro s h s' he hs'
    obtain ⟨h1, h2, h3⟩ := acts_disable_hold s h.1 s' he hs'
    exact ⟨h1, h2, Hold.rest h3⟩

/-- `emit_frame` from the last `disabled` on. -/
theorem acts_transmit (he : τ.emitting = true) : Acts τ.thread (Written τ f) (transmit f)
    fun _ => Rest τ.thread τ.knows τ.final := by
  refine triple_bind (B := fun off s => (off = true → Hold τ 0 s) ∧
    (off = false → Hold τ 0 s ∧ Sendable f s)) ?_ fun off => ?_
  · exact acts_load stable_written fun s _ h => ⟨fun _ => h.hold, fun hd => ⟨h.hold, h.sendable he hd⟩⟩
  · cases off with
    | true => exact triple_pure fun _ h => (h.1 rfl).rest
    | false =>
      refine Triple.mono ?_ (fun s h => h.2 rfl) fun _ _ h => h
      exact triple_bind triple_ask fun outcome => acts_record outcome

/-! ## `emit_frame` -/

theorem acts_emitDrained {callers : ℕ} (he : τ.emitting = true) (hnow : τ.time ≤ uint64Max)
    (hcall : ∀ s, τ.knows s → Caller τ.thread callers s) :
    Acts τ.thread (Hold τ 0) (emitDrained callers τ.time)
      fun _ => Rest τ.thread τ.knows τ.final := by
  refine triple_bind (acts_callbacks hcall) fun callbacks => ?_
  refine triple_bind (acts_dropsPending kinds) fun drops => ?_
  refine triple_bind (acts_look stable_frontier) fun faults => ?_
  refine triple_bind (B := fun o s => (o = none → Hold τ 0 s) ∧ ∀ f ∈ o, Written τ f s) ?_
    fun frame => ?_
  · have hquiet : (decide (callbacks = callers) && !drops && decide (faults = 0)) = true →
        callbacks = callers ∧ drops = false := by
      intro h
      simp only [Bool.and_eq_true, decide_eq_true_eq, Bool.not_eq_true'] at h
      exact h.1
    refine (acts_prepare hnow hquiet).mono (fun s h => h.mono id fun _ k _ => .inr ?_) fun _ _ h => h
    cases k <;> decide
  · cases frame with
    | none => exact triple_pure fun _ h => (h.1 rfl).rest
    | some f => exact (acts_transmit he).mono (fun s h => h.2 f rfl) fun _ _ h => h

theorem acts_emitAt {force : Bool} {callers : ℕ} (he : τ.emitting = true) (hnow : τ.time ≤ uint64Max)
    (hcall : ∀ s, τ.knows s → Caller τ.thread callers s) :
    Acts τ.thread (Hold τ 0) (emitAt force callers τ.time)
      fun _ => Rest τ.thread τ.knows τ.final := by
  refine triple_bind (acts_look (stable_hold τ 0)) fun last => ?_
  split_ifs with hsoon hback
  · exact triple_pure fun _ h => h.rest
  · exact acts_disable_hold.mono (fun _ h => h) fun _ _ h => Hold.rest h
  · refine triple_bind triple_ask fun allowed => ?_
    have hgo : Acts τ.thread (Hold τ 0) (do
        let drained ← drainDrops
        if drained then emitDrained callers τ.time) fun _ => Rest τ.thread τ.knows τ.final := by
      refine triple_bind acts_drainDrops fun drained => ?_
      cases drained with
      | true => exact (acts_emitDrained he hnow hcall).mono (fun _ h => h.1) fun _ _ h => h
      | false => exact triple_pure fun _ h => h.1.rest
    cases allowed with
    | true => exact hgo
    | false => exact acts_disable_hold.mono (fun _ h => h) fun _ _ h => Hold.rest h

/-- The task of a thread whose frame shows the time `now`. -/
def Task.emit (τ : Task) (now : ℕ) : Task := { τ with time := now, emitting := true }

/-- `emit_frame` reads the clock. -/
theorem acts_frameClock : Acts τ.thread (Hold τ 0) (clockNs noteFrame)
    fun o s => (o = none → Hold τ 0 s) ∧ ∀ now ∈ o, now ≤ uint64Max ∧ Hold (τ.emit now) 0 s := by
  refine acts_clockNs (stable_hold τ 0) (fun s d h => h.tick d) ?_ ?_
  · intro s h
    exact ⟨fun _ => h, fun now hn => by cases hn⟩
  · intro s hs h hle
    obtain ⟨hinv, hact⟩ := Inv.noteFrame hs τ.thread s.clock
    refine ⟨hinv, hact, fun hn => (by cases hn), fun now hn => ?_⟩
    obtain rfl := Option.some.inj hn
    refine ⟨hle, h.holder, τ.rider _ _ _ hact (fun _ => ⟨rfl, rfl, rfl⟩) h.knows, le_rfl,
      h.kept.mono h.time ⟨rfl, rfl, rfl⟩ id hact.late id, fun _ hl hf b hb => ?_⟩
    -- the observer notes a frame of a callback that is later than the end
    simp only [noteFrame, Bool.or_eq_false_iff, Bool.and_eq_false_iff, Bool.not_eq_false'] at hl hf
    rcases hl.2 with hfin | hany
    · rw [hf] at hfin
      cases hfin
    · have hb : s.closed = some b := hb
      simp only [hb, Option.any_some, decide_eq_false_iff_not, not_lt] at hany
      exact hany

/-- `emit_frame` -/
theorem acts_emitFrame (force : Bool) (callers : ℕ)
    (hcall : ∀ s, τ.knows s → Caller τ.thread callers s) :
    Acts τ.thread (Hold τ 0) (emitFrame force callers)
      fun _ => Rest τ.thread τ.knows τ.final := by
  refine triple_bind (acts_look (stable_hold τ 0)) fun off => ?_
  cases off with
  | true => exact triple_pure fun _ h => h.rest
  | false =>
    refine triple_bind acts_frameClock fun now => ?_
    cases now with
    | none =>
      refine Triple.mono (triple_bind (acts_addClockFaults 1) fun b => ?_) (fun s h => h.1 rfl)
        fun _ _ h => h
      exact triple_pure fun _ h => h.1.rest
    | some now =>
      refine Triple.mono (triple_and fun hle => ?_) (fun s h => h.2 now rfl) fun _ _ h => h
      exact acts_emitAt (τ := τ.emit now) rfl hle hcall

end

end SmartHome.Mqtt.Native.Threads
