/-
  The threads of the native sender, function by function: from what a thread knows when it enters a
  function to what it knows when it leaves it, whatever the others do in between.

  A frame under way goes through `Frontier`: once the callbacks in progress have been counted, every
  callback that has read an earlier time has been taken into account; once the pending counts have
  been seen to be zero, it is in the totals.
-/
import SmartHome.Mqtt.Native.Steps

namespace SmartHome.Mqtt.Native.Threads

open Verif Verif.Program Verif.Protocol

/-- What a thread does, from what it knows before to what it knows after. -/
abbrev Acts {α : Type} (i : ℕ) (A : Shared → Prop) (p : Action α) (B : α → Shared → Prop) : Prop :=
  protocol.Triple i A p B

section
variable {i : ℕ} {A X : Shared → Prop} {τ : Task} {owed owed' : Kind → ℕ} {s : Shared}
  {p q : Plugin}

/-! ## Reading -/

theorem acts_load {α : Type} {B : α → Shared → Prop} {g : Shared → α} (hA : protocol.Stable i A)
    (h : ∀ s, Inv s → A s → B (g s) s) : Acts i A (load g) B := triple_load Act.refl hA h

/-- Reading tells nothing that is needed. -/
theorem acts_look {α : Type} {g : Shared → α} (hA : protocol.Stable i A) :
    Acts i A (load g) fun _ => A := acts_load hA fun _ _ h => h

theorem Rider.stable (h : Rider i X) : protocol.Stable i X :=
  fun j hj s s' _ _ hact hx => h j s s' hact (fun hij => absurd hij hj) hx

theorem Rider.and {Y : Shared → Prop} (h : Rider i X) (h' : Rider i Y) : Rider i fun s => X s ∧ Y s := by
  rintro j s s' hact hij ⟨hx, hy⟩
  exact ⟨h j s s' hact hij hx, h' j s s' hact hij hy⟩

theorem rider_true : Rider i fun _ => True := fun _ _ _ _ _ _ => trivial

/-! ## The clock -/

/-- `clock_ns`, where what is known does not depend on the time. -/
theorem acts_clockNs {B : Option ℕ → Shared → Prop} {note : ℕ → Shared → Shared}
    (hA : protocol.Stable i A) (htick : ∀ s d, A s → A { s with clock := s.clock + d })
    (hnone : ∀ s, A s → B none s) (hnote : ∀ s, Inv s → A s → s.clock ≤ uint64Max →
      Inv (note s.clock s) ∧ Act i s (note s.clock s) ∧ B (some s.clock) (note s.clock s)) :
    Acts i A (clockNs note) B := by
  refine triple_bind triple_ask fun passed => ?_
  cases passed with
  | none => exact triple_pure hnone
  | some d =>
    refine triple_access hA fun s hs ha => ?_
    obtain ⟨hinv, hact⟩ := Inv.later hs i d
    unfold Shared.tick
    split_ifs with hle
    · obtain ⟨h1, h2, h3⟩ := hnote _ hinv (htick s d ha) hle
      exact ⟨h1, h2.after, h3⟩
    · exact ⟨hinv, hact, hnone _ (htick s d ha)⟩

theorem Rider.tick (hX : Rider i X) (d : ℕ) (h : X s) : X { s with clock := s.clock + d } := by
  refine hX i s _ ?_ (fun _ => ⟨rfl, rfl, rfl⟩) h
  exact { Act.refl i s with
    clock := Nat.le_add_right _ _
    guarded := fun _ => ⟨rfl, rfl, rfl⟩ }

theorem Hold.tick (d : ℕ) (h : Hold τ owed s) : Hold τ owed { s with clock := s.clock + d } where
  holder := h.holder
  knows := τ.rider.tick d h.knows
  time := h.time.trans (Nat.le_add_right _ _)
  kept := h.kept.mono le_rfl ⟨rfl, rfl, rfl⟩ id id id
  order := h.order

/-! ## Plain code under the lock -/

/-- Counters that grow. -/
theorem Kept.advance {final : Bool} {t : ℕ} (h : Kept owed final t s) (hq : Advance s.plugin q)
    (hd : ∀ k, q.dropped k + owed' k = s.plugin.dropped k + owed k) :
    Kept owed' final t (s.plug q) := by
  intro hs
  have hs : s.plugin.disabled = false :=
    Bool.eq_false_iff.2 fun h1 => Bool.eq_false_iff.1 hs (hq.disabled h1)
  obtain ⟨ha, hf, hlive⟩ := h hs
  refine ⟨⟨fun hw k => ?_, fun hw k => ?_, ?_⟩, hq.final.trans hf, fun hl => (hlive hl).advance hq⟩
  · have h1 := ha.total hw k
    have h2 := hq.counts k
    have h3 := hd k
    simp only [Shared.plug] at h1 ⊢
    omega
  · exact (hd k).trans (ha.dropped hw k)
  · rw [Shared.plug, hq.pending]
    exact ha.rows

/-- Additions that may disable the plugin. -/
theorem acts_proceed {f : Plugin → Except Plugin Plugin} (htame : ∀ p, Tame p (f p))
    (hdis : ∀ p, Disabling (f p)) (hok : ∀ p q, f p = .ok q →
      Advance p q ∧ ∀ k, q.dropped k + owed' k = p.dropped k + owed k) :
    Acts τ.thread (Hold τ owed) (proceed f)
      fun b s => Hold τ owed' s ∧ (b = false → s.plugin.disabled = true) := by
  refine triple_access (stable_hold τ owed) fun s hs h => ?_
  have hplain := (htame s.plugin).settle
  obtain ⟨hinv, hact⟩ := Inv.plug hs h.holder hplain
  have hhold : Kept owed' τ.final τ.time (s.plug (settle (f s.plugin))) →
      Hold τ owed' (s.plug (settle (f s.plugin))) := by
    intro hk
    exact h.step hact rfl rfl rfl rfl rfl hplain.final hk
  refine ⟨hinv, hact, ?_⟩
  cases hf : f s.plugin with
  | error q =>
    rw [hf] at hhold
    exact ⟨hhold (kept_disabled (hdis _ q hf)), fun _ => hdis _ q hf⟩
  | ok q =>
    rw [hf] at hhold
    obtain ⟨hadv, hd⟩ := hok _ q hf
    exact ⟨hhold (h.kept.advance hadv hd), fun hb => Bool.noConfusion hb⟩

theorem takeDrops_dropped {k : Kind} {n : ℕ} (h : p.takeDrops k n = .ok q) (j : Kind) :
    q.dropped j = p.dropped j + Function.update (0 : Kind → ℕ) k n j := by
  simp only [Plugin.takeDrops, bind_ok, Plugin.addEventSeq, Plugin.addTotal, Plugin.addDropped,
    Plugin.add_ok] at h
  obtain ⟨_, ⟨-, rfl⟩, _, ⟨-, rfl⟩, -, rfl⟩ := h
  by_cases hj : j = k
  · subst hj; simp
  · simp [hj]

theorem addClockFaults_dropped {n : ℕ} (h : p.addClockFaults n = .ok q) : q.dropped = p.dropped := by
  simp only [Plugin.addClockFaults, Plugin.add_ok] at h
  obtain ⟨-, rfl⟩ := h
  rfl

/-! ## Draining -/

/-- The exchange leaves open what has to be added. -/
theorem acts_exchangeDrop (k : Kind) : Acts τ.thread (Hold τ 0) (exchangeDrop k)
    fun n => Hold τ (Function.update (0 : Kind → ℕ) k n) := by
  refine triple_access (stable_hold τ 0) fun s hs h => ?_
  obtain ⟨hinv, hact⟩ := Inv.exchangeDrop hs h.holder k
  refine ⟨hinv, hact, h.step hact rfl rfl rfl rfl rfl id fun hd => ?_⟩
  obtain ⟨ha, hf, hlive⟩ := h.kept hd
  have hmap : ∀ (P : Entry → Bool), (∀ t, P ⟨t, k, none⟩ = true) →
      ((s.waiting k).map fun t => (⟨t, k, none⟩ : Entry)).countP P = (s.waiting k).length := by
    intro P hP
    rw [List.countP_map, List.countP_eq_length]
    exact fun t _ => hP t
  have hzero : ∀ (P : Entry → Bool), (∀ t, P ⟨t, k, none⟩ = false) →
      ((s.waiting k).map fun t => (⟨t, k, none⟩ : Entry)).countP P = 0 := by
    intro P hP
    rw [List.countP_map, List.countP_eq_zero]
    exact fun t _ => by simp [hP t]
  refine ⟨⟨fun hw j => ?_, fun hw j => ?_, fun e he r hr => ?_⟩, hf, fun hl => ?_⟩
  · have h1 := ha.total hw j
    have hlen := Inv.waiting hs hw k
    simp only [Shared.exchangeDrop, List.countP_append]
    by_cases hj : j = k
    · subst hj
      rw [hmap _ fun t => by simp, Function.update_self, hlen]
      simpa using h1
    · rw [hzero _ fun t => by simp [Ne.symm hj], Function.update_of_ne hj]
      simpa using h1
  · have h1 := ha.dropped hw j
    have hlen := Inv.waiting hs hw k
    simp only [Shared.exchangeDrop, List.countP_append]
    by_cases hj : j = k
    · subst hj
      rw [hmap _ fun t => by simp, Function.update_self, hlen]
      simpa using h1
    · rw [hzero _ fun t => by simp [Ne.symm hj], Function.update_of_ne hj]
      simpa using h1
  · rcases List.mem_append.1 he with he | he
    · exact ha.rows e he r hr
    · obtain ⟨t, -, rfl⟩ := List.mem_map.1 he
      cases hr
  · exact live_guarded (hlive hl) rfl

/-- The additions close it. -/
theorem acts_takeDrops (k : Kind) (n : ℕ) :
    Acts τ.thread (Hold τ (Function.update (0 : Kind → ℕ) k n)) (proceed fun p => p.takeDrops k n)
      fun b s => Hold τ 0 s ∧ (b = false → s.plugin.disabled = true) := by
  refine acts_proceed (fun p => tame_takeDrops k n) (fun p => Plugin.disabling_takeDrops k n) ?_
  intro p q hq
  exact ⟨Plugin.takeDrops_ok hq, takeDrops_dropped hq⟩

theorem acts_drainEach : ∀ ks, Acts τ.thread (Hold τ 0) (drainEach ks)
    fun b s => Hold τ 0 s ∧ (b = false → s.plugin.disabled = true)
  | [] => triple_pure fun _ h => ⟨h, fun hb => Bool.noConfusion hb⟩
  | k :: ks => by
    refine triple_bind (acts_exchangeDrop k) fun n => triple_bind (acts_takeDrops k n) fun added => ?_
    cases added with
    | true => exact (acts_drainEach ks).mono (fun _ h => h.1) fun _ _ h => h
    | false => exact triple_pure fun _ h => h

/-- An atomic operation on a field that the lock does not guard. -/
theorem acts_free {α : Type} (f : Plugin → Plugin) {g : Shared → α}
    (hg : ∀ p, guardedPlugin (f p) = guardedPlugin p) (hp : ∀ p, (f p).pendingDrop = p.pendingDrop)
    (hd : ∀ p, p.disabled = true → (f p).disabled = true) (hX : Rider i X) :
    Acts i X (access (fun s => s.plug (f s.plugin)) g) fun _ => X := by
  refine triple_access hX.stable fun s hs hx => ?_
  obtain ⟨hinv, hact⟩ := Inv.free hs i (hg s.plugin) (hp s.plugin) (hd s.plugin)
  exact ⟨hinv, hact, hX i s _ hact (fun _ => ⟨rfl, rfl, rfl⟩) hx⟩

/-- What the lock guards is right after any step that leaves it alone. -/
theorem Hold.free {s' : Shared} (h : Hold τ owed s) (hact : Act τ.thread s s') (hg : SameGuarded s s')
    (hh : s'.holder = s.holder) (hr : s'.readings = s.readings) (hi : s'.inside = s.inside)
    (hc : s'.closed = s.closed) (hl : s'.late = s.late) : Hold τ owed s' :=
  h.step hact hh hr hi hc hl (fun hf => hg.final ▸ hf)
    (h.kept.mono le_rfl hg hact.disabled hact.late hact.wrapped)

theorem acts_exchangeFaults : Acts τ.thread (Hold τ 0) exchangeFaults fun _ => Hold τ 0 := by
  refine triple_access (stable_hold τ 0) fun s hs h => ?_
  obtain ⟨hinv, hact⟩ := Inv.free (q := { s.plugin with pendingFaults := 0 }) hs τ.thread rfl rfl id
  exact ⟨hinv, hact, h.free hact ⟨rfl, rfl, rfl⟩ rfl rfl rfl rfl rfl⟩

theorem acts_addClockFaults (n : ℕ) : Acts τ.thread (Hold τ 0) (proceed fun p => p.addClockFaults n)
    fun b s => Hold τ 0 s ∧ (b = false → s.plugin.disabled = true) := by
  refine acts_proceed (fun p => tame_addClockFaults n) (fun p => Plugin.disabling_add) ?_
  intro p q hq
  exact ⟨(Plugin.addClockFaults_ok hq).1, fun k => by rw [addClockFaults_dropped hq]⟩

/-- `drain_drops` -/
theorem acts_drainDrops : Acts τ.thread (Hold τ 0) drainDrops
    fun b s => Hold τ 0 s ∧ (b = false → s.plugin.disabled = true) := by
  refine triple_bind (acts_drainEach kinds) fun drained => ?_
  cases drained with
  | true =>
    exact (triple_bind acts_exchangeFaults fun n => acts_addClockFaults n).mono (fun _ h => h.1)
      fun _ _ h => h
  | false => exact triple_pure fun _ h => h

/-! ## Disabling -/

/-- `disable`, whatever is known. -/
theorem acts_disable (hX : Rider i X) : Acts i X disable fun _ s => X s ∧ s.plugin.disabled = true := by
  refine triple_access hX.stable fun s hs hx => ?_
  obtain ⟨hinv, hact⟩ := Inv.free (q := s.plugin.disable) hs i rfl rfl fun _ => rfl
  exact ⟨hinv, hact, hX i s _ hact (fun _ => ⟨rfl, rfl, rfl⟩) hx, rfl⟩

theorem acts_disable_hold : Acts τ.thread (Hold τ 0) disable fun _ => Hold τ 0 := by
  refine triple_access (stable_hold τ 0) fun s hs h => ?_
  obtain ⟨hinv, hact⟩ := Inv.free (q := s.plugin.disable) hs τ.thread rfl rfl fun _ => rfl
  exact ⟨hinv, hact, h.free hact ⟨rfl, rfl, rfl⟩ rfl rfl rfl rfl rfl⟩

end

end SmartHome.Mqtt.Native.Threads
