/-
  The context cache converges: whatever the order in which timely snapshots are delivered, and
  however often, the cache ends with the latest of them.

  `cached_step` says what one message does to one cache; `converges` follows by induction over the
  messages, with the register of `Verif.Latest` as what the cache is for.
-/
import Mathlib.Data.List.Induction
import SmartHome.Lib.Latest
import SmartHome.SecurityLight.Cache

namespace SmartHome.SecurityLight.Cache

open Verif

namespace Flow
variable (f : Flow) (m m' : Mode) (n n' : Name)

/-- What a cache holds. -/
def cached : Option Snapshot := (f.kept m).cache n

@[simp] theorem cached_write (l : Line) : (f.write l).cached m n = f.cached m n := rfl

@[simp] theorem cached_setEpisode (e : Option Episode) :
    (f.setEpisode m' n' e).cached m n = f.cached m n := by
  by_cases h : m = m'
  · simp [cached, setEpisode, keep, h]
  · simp [cached, setEpisode, keep, h]

theorem cached_setCache (s : Option Snapshot) :
    (f.setCache m' n' s).cached m n = if m = m' ∧ n = n' then s else f.cached m n := by
  by_cases h : m = m'
  · simp [cached, setCache, keep, h]
  · simp [cached, setCache, keep, h]

/-- Changing what is kept beside the caches of a mode. -/
theorem cached_keep {k : Kept} (h : k.cache = (f.kept m').cache) :
    (f.keep m' k).cached m n = f.cached m n := by
  by_cases hm : m = m'
  · simp [cached, keep, hm, h]
  · simp [cached, keep, hm]

end Flow

namespace Delivery
variable {d : Delivery} {f : Flow} {m : Mode} {n n' : Name}

@[simp] theorem cached_endEpisode : (d.endEpisode n' f).cached m n = f.cached m n := by
  unfold endEpisode
  cases d.previousEpisode n' f <;> simp

@[simp] theorem cached_reject (reason : Reason) : (d.reject n' f reason).cached m n = f.cached m n := by
  unfold reject
  cases d.previousEpisode n' f with
  | none => simp
  | some e =>
    by_cases h : e.signature = ⟨reason, d.message.incomingAt, d.oldAt n' f⟩ ∧ ¬ d.expired e
    · simp [h]
    · simp [h]

@[simp] theorem cached_reset : (d.reset f).cached m n = f.cached m n := by
  unfold reset
  split
  · exact Flow.cached_keep f m d.message.mode n rfl
  · rfl

/-- The message brings a snapshot for a cache of a mode. -/
def brings (d : Delivery) (m : Mode) (n : Name) : Prop :=
  d.governed ∧ d.message.mode = m ∧ d.target = some n

instance (d : Delivery) (m : Mode) (n : Name) : Decidable (d.brings m n) := by
  unfold brings; infer_instance

/-- Every other message leaves the cache alone. -/
theorem cached_other (h : ¬ d.brings m n) : (d.handle f).2.cached m n = f.cached m n := by
  unfold handle
  by_cases hg : d.governed
  swap
  · rw [if_neg hg]
    rfl
  rw [if_pos hg]
  show (d.update (d.reset f)).2.cached m n = f.cached m n
  have hf : (d.reset f).cached m n = f.cached m n := cached_reset
  rw [← hf]
  generalize d.reset f = g
  unfold update
  cases ht : d.target with
  | some k =>
    have hne : ¬ (m = d.message.mode ∧ n = k) := by
      rintro ⟨rfl, rfl⟩
      exact h ⟨hg, rfl, ht⟩
    show (d.updateCache k g).2.cached m n = g.cached m n
    unfold updateCache
    cases d.refusal k g with
    | some reason => simp
    | none =>
      by_cases hr : d.replaces k g
      · simp [hr, Flow.cached_setCache, hne]
      · simp [hr]
  | none =>
    simp only
    split
    · rfl
    · split
      · cases d.message.payload.communicationFailed with
        | none => rfl
        | some b => exact Flow.cached_keep g m d.message.mode n rfl
      · rfl

/-- A message that brings a snapshot. -/
theorem cached_brings (h : d.brings m n) : (d.handle f).2.cached m n =
    if d.refusal n (d.reset f) = none ∧ d.replaces n (d.reset f) then d.message.payload.context
    else f.cached m n := by
  obtain ⟨hg, rfl, ht⟩ := h
  unfold handle
  rw [if_pos hg]
  show (d.update (d.reset f)).2.cached d.message.mode n = _
  have hf : (d.reset f).cached d.message.mode n = f.cached d.message.mode n := cached_reset
  rw [← hf]
  generalize d.reset f = g
  simp only [update, ht, updateCache]
  cases d.refusal n g with
  | some reason => simp
  | none =>
    by_cases hr : d.replaces n g
    · simp [hr, Flow.cached_setCache]
    · simp [hr]

end Delivery

/-! ## Snapshots with times -/

/-- The time of a snapshot. -/
def Snapshot.stamp (s : Snapshot) : Extended :=
  match s.updatedAt with
  | some (.real x) => x
  | _ => 0

/-- A snapshot whose time is known and positive. -/
def Snapshot.Timed (s : Snapshot) : Prop := s.updatedAt = some (.real s.stamp) ∧ 0 < s.stamp

namespace Delivery
variable {d : Delivery} {f : Flow} {m : Mode} {n : Name} {s : Snapshot}

/-- The message has the time of its snapshot, which is positive and not beyond the tolerance. -/
structure Timely (d : Delivery) (s : Snapshot) : Prop where
  context : d.message.payload.context = some s
  updatedAt : d.message.payload.updatedAt = s.updatedAt
  timed : s.Timed
  past : ¬ d.horizon.lt (.real s.stamp)

theorem Timely.incomingAt (h : d.Timely s) : d.message.incomingAt = .real s.stamp := by
  rw [Message.incomingAt, h.updatedAt, h.timed.1]
  rfl

/-- **One timely snapshot**: the cache holds the later of the two. -/
theorem cached_timely (hb : d.brings m n) (ht : d.Timely s) (hc : ∀ c ∈ f.cached m n, c.Timed)
    (hsame : ∀ c ∈ f.cached m n, c.stamp = s.stamp → c = s) :
    (d.handle f).2.cached m n = keepLatest Snapshot.stamp (f.cached m n) s := by
  have hold : d.old n (d.reset f) = f.cached m n := by
    rw [← hb.2.1]
    exact cached_reset
  have hin : d.message.incomingAt = .real s.stamp := ht.incomingAt
  have hne : s.stamp ≠ 0 := ht.timed.2.ne'
  have hpast := ht.past
  rw [cached_brings hb, ht.context]
  simp only [refusal, replaces, oldAt, hold, hin, ht.context]
  cases hk : f.cached m n with
  | none => simp [keepLatest, hpast]
  | some c =>
    obtain ⟨hcat, hcpos⟩ := hc c hk
    have hat : Snapshot.at (some c) = .real c.stamp := by
      rw [Snapshot.at, hcat]
      rfl
    have hcne : c.stamp ≠ 0 := hcpos.ne'
    rw [hat]
    rcases lt_trichotomy c.stamp s.stamp with hlt | heq | hgt
    · simp [keepLatest, hpast, hne, hlt, hlt.not_gt]
    · have hcs := hsame c hk heq
      subst hcs
      simp [keepLatest, hcne]
    · simp [keepLatest, hpast, hne, hcne, hgt, hgt.not_gt]

end Delivery

/-! ## Runs -/

/-- The snapshots that the messages bring for a cache of a mode, in order of delivery. -/
def snapshots (m : Mode) (n : Name) (ds : List Delivery) : List Snapshot :=
  (ds.filter fun d => d.brings m n).filterMap fun d => d.message.payload.context

/-- What is assumed of the snapshots: their times are known, positive and not in the future, and
    no two of them have the same time. -/
structure Distinct (m : Mode) (n : Name) (ds : List Delivery) : Prop where
  timely : ∀ d ∈ ds, d.brings m n → ∃ s, d.Timely s
  stamps : ∀ s ∈ snapshots m n ds, ∀ t ∈ snapshots m n ds, s.stamp = t.stamp → s = t

theorem snapshots_concat (m : Mode) (n : Name) (ds : List Delivery) (d : Delivery) :
    snapshots m n (ds ++ [d]) = snapshots m n ds ++
      if d.brings m n then d.message.payload.context.toList else [] := by
  unfold snapshots
  rw [List.filter_append, List.filterMap_append]
  congr 1
  by_cases h : d.brings m n
  · cases hc : d.message.payload.context <;> simp [h, hc]
  · simp [h]

section
variable {f g : Flow} {m : Mode} {n : Name} {ds es : List Delivery}

theorem snapshots_subset (h : es ⊆ ds) : snapshots m n es ⊆ snapshots m n ds := by
  intro s hs
  obtain ⟨d, hd, hcontext⟩ := List.mem_filterMap.1 hs
  obtain ⟨hd, hb⟩ := List.mem_filter.1 hd
  exact List.mem_filterMap.2 ⟨d, List.mem_filter.2 ⟨h hd, hb⟩, hcontext⟩

theorem Distinct.subset (hd : Distinct m n ds) (h : es ⊆ ds) : Distinct m n es where
  timely d hde := hd.timely d (h hde)
  stamps s hs t ht := hd.stamps s (snapshots_subset h hs) t (snapshots_subset h ht)

theorem Distinct.timed (h : Distinct m n ds) : ∀ s ∈ snapshots m n ds, s.Timed := by
  intro s hs
  obtain ⟨d, hd, hcontext⟩ := List.mem_filterMap.1 hs
  obtain ⟨hd, hb⟩ := List.mem_filter.1 hd
  obtain ⟨t, ht⟩ := h.timely d hd (of_decide_eq_true hb)
  obtain rfl : t = s := Option.some.inj (ht.context.symm.trans hcontext)
  exact ht.timed

/-- The cache is the register of the latest snapshot. -/
theorem latest_run (h0 : f.cached m n = none) (h : Distinct m n ds) :
    Latest Snapshot.stamp (snapshots m n ds) ((run f ds).cached m n) := by
  induction ds using List.reverseRecOn with
  | nil =>
    show Latest Snapshot.stamp [] (f.cached m n)
    rw [h0]
    exact Latest.nil
  | append_singleton ds d ih =>
    have hds : Distinct m n ds := h.subset (List.subset_append_left ds [d])
    have ih := ih hds
    have hrun : run f (ds ++ [d]) = (d.handle (run f ds)).2 := by
      rw [run, List.foldl_append]
      rfl
    rw [hrun, snapshots_concat]
    by_cases hb : d.brings m n
    · obtain ⟨s, ht⟩ := h.timely d (List.mem_append_right _ (List.mem_singleton_self d)) hb
      have hsnap : snapshots m n (ds ++ [d]) = snapshots m n ds ++ [s] := by
        rw [snapshots_concat, if_pos hb, ht.context]
        rfl
      have hstep := Delivery.cached_timely (f := run f ds) hb ht
        (fun c hc => hds.timed c (ih.mem c hc))
        (fun c hc he => h.stamps c (by simp [hsnap, ih.mem c hc]) s (by simp [hsnap]) he)
      rw [if_pos hb, ht.context, hstep]
      exact ih.keep s
    · rw [if_neg hb, List.append_nil, Delivery.cached_other hb]
      exact ih

end

/-- **The context cache converges.**  A cache that starts empty holds the latest of the snapshots
    that were delivered for it, its time never decreases, and another run that is given the same
    snapshots, in any order and number and among any other messages, ends with the same context. -/
theorem cache_converges {f : Flow} {m : Mode} {n : Name} {ds : List Delivery}
    (h0 : f.cached m n = none) (h : Distinct m n ds) :
    Latest Snapshot.stamp (snapshots m n ds) ((run f ds).cached m n) ∧
    (∀ pre mid post, ds = pre ++ mid ++ post → ∀ s ∈ (run f pre).cached m n,
      ∃ t ∈ (run f (pre ++ mid)).cached m n, s.stamp ≤ t.stamp) ∧
    ∀ (g : Flow) (es : List Delivery), g.cached m n = none → Distinct m n es →
      (∀ s, s ∈ snapshots m n es ↔ s ∈ snapshots m n ds) →
        (run g es).cached m n = (run f ds).cached m n := by
  refine ⟨latest_run h0 h, fun pre mid post he s hs => ?_, fun g es hg hes hmem => ?_⟩
  · subst he
    have hmid : Distinct m n (pre ++ mid) := h.subset (List.subset_append_left _ post)
    have hpre : Distinct m n pre := hmid.subset (List.subset_append_left pre mid)
    have hs' : s ∈ snapshots m n pre := (latest_run h0 hpre).mem s hs
    exact (latest_run h0 hmid).le s (snapshots_subset (List.subset_append_left pre mid) hs')
  · exact (latest_run hg hes).unique (latest_run h0 h) hmem hes.stamps

/-- Two snapshots of the people, the older one delivered last and again, in between the sun. -/
def sampleDeliveries : List Delivery :=
  let snapshot (at' : ℚ) (text : String) : Snapshot :=
    ⟨some (.fin at'), false, false, false, false, false, text⟩
  let message (kind : String) (s : Option Snapshot) : Message :=
    ⟨false, false, ⟨false, some kind, s.bind Snapshot.updatedAt, s, true, none⟩⟩
  [⟨100, ⟨true, true, .fin 60⟩, message "people_context" (some (snapshot 40 "b"))⟩,
    ⟨101, ⟨true, true, .fin 60⟩, message "sun_context" none⟩,
    ⟨102, ⟨true, true, .fin 60⟩, message "people_context" (some (snapshot 30 "a"))⟩,
    ⟨102, ⟨true, true, .fin 60⟩, message "people_context" (some (snapshot 40 "b"))⟩]

/-- Nothing is known yet. -/
def Flow.empty : Flow := ⟨fun _ => ⟨fun _ => none, fun _ => none, false, false, false⟩, false, false, []⟩

theorem distinct_sample : Distinct .production .people sampleDeliveries where
  timely d hd hb := by
    have h : ∀ d ∈ sampleDeliveries, d.brings .production .people →
        ∃ s ∈ d.message.payload.context, d.message.payload.updatedAt = s.updatedAt ∧
          s.updatedAt = some (.real s.stamp) ∧ 0 < s.stamp ∧ ¬ d.horizon.lt (.real s.stamp) := by
      decide +kernel
    obtain ⟨s, hs, hat, htimed, hpos, hpast⟩ := h d hd hb
    exact ⟨s, hs, hat, ⟨htimed, hpos⟩, hpast⟩
  stamps := by decide +kernel

theorem cache_converges_sample :
    (run Flow.empty sampleDeliveries.reverse).cached .production .people =
      (run Flow.empty sampleDeliveries).cached .production .people ∧
    ((run Flow.empty sampleDeliveries).cached .production .people).map Snapshot.text = some "b" := by
  have hrev : sampleDeliveries.reverse ⊆ sampleDeliveries := List.reverse_subset.2 (List.Subset.refl _)
  have hmem : ∀ s, s ∈ snapshots .production .people sampleDeliveries.reverse ↔
      s ∈ snapshots .production .people sampleDeliveries := fun s =>
    ⟨fun hs => snapshots_subset hrev hs, fun hs => snapshots_subset (by simp) hs⟩
  exact ⟨(cache_converges rfl distinct_sample).2.2 Flow.empty _ rfl (distinct_sample.subset hrev) hmem,
    by decide +kernel⟩

end SmartHome.SecurityLight.Cache
