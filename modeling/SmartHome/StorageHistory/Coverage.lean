/-
  When the growth over a day is known.

  A call replaces the newest sample unless half an interval has passed since that sample, which may
  itself have replaced an earlier one.  So what is kept are the calls that are followed by a gap of
  half an interval, and the last call (`Shape`).
-/
import Mathlib.Data.List.Induction
import Mathlib.Tactic.Linarith
import SmartHome.StorageHistory.Analyze

namespace SmartHome.StorageHistory

section
variable {α : Type} {p : Policy} {test : Bool} {xs ys : List (Sample α)} {x y : Sample α}

/-! ## What is kept -/

/-- A sample that the next one does not replace. -/
def Kept (p : Policy) (xs : List (Sample α)) (y : Sample α) : Prop :=
  ∃ pre z post, xs = pre ++ y :: z :: post ∧ p.interval / 2 ≤ z.ts - y.ts

/-- Samples of one source, in the order of time. -/
structure Ordered (test : Bool) (xs : List (Sample α)) : Prop where
  source : ∀ x ∈ xs, x.test = test
  order : xs.Pairwise fun a b => a.ts ≤ b.ts

theorem Ordered.left (h : Ordered test (xs ++ ys)) : Ordered test xs where
  source x hx := h.source x (List.mem_append_left _ hx)
  order := (List.pairwise_append.1 h.order).1

theorem Kept.mem (h : Kept p xs y) : y ∈ xs := by
  obtain ⟨pre, z, post, rfl, -⟩ := h
  simp

/-- A further sample lets the newest one be kept if half an interval has passed. -/
theorem kept_concat (last : Sample α) : Kept p (xs ++ [last] ++ [x]) y ↔
    Kept p (xs ++ [last]) y ∨ y = last ∧ p.interval / 2 ≤ x.ts - last.ts := by
  constructor
  · rintro ⟨pre, z, post, he, hgap⟩
    cases post using List.reverseRecOn with
    | nil =>
      have he' : xs ++ [last] ++ [x] = (pre ++ [y]) ++ [z] := by rw [he]; simp
      obtain ⟨h1, h2⟩ := List.append_inj' he' rfl
      obtain ⟨-, h3⟩ := List.append_inj' h1 rfl
      cases h2
      cases h3
      exact .inr ⟨rfl, hgap⟩
    | append_singleton post w =>
      have he' : xs ++ [last] ++ [x] = (pre ++ y :: z :: post) ++ [w] := by rw [he]; simp
      obtain ⟨h1, -⟩ := List.append_inj' he' rfl
      exact .inl ⟨pre, z, post, h1, hgap⟩
  · rintro (⟨pre, z, post, he, hgap⟩ | ⟨rfl, hgap⟩)
    · exact ⟨pre, z, post ++ [x], by rw [he]; simp, hgap⟩
    · exact ⟨xs, x, [], by simp, hgap⟩

theorem sortByTime_of_sorted (h : xs.Pairwise fun a b => a.ts ≤ b.ts) : sortByTime xs = xs :=
  List.Pairwise.insertionSort_eq h

/-- The history after the samples: the recent ones of those that are kept, and the last one. -/
structure Shape (p : Policy) (test : Bool) (xs h : List (Sample α)) (last : Sample α) : Prop where
  kept : ∃ ks : List (Sample α), h = ks.filter (recent p test last.ts) ++ [last] ∧
    (∀ y, y ∈ ks ↔ Kept p xs y) ∧ (ks ++ [last]).Pairwise fun a b => a.ts ≤ b.ts

theorem interval_nonneg (p : Policy) : 0 ≤ p.interval := by
  unfold Policy.interval
  positivity

/-- The retention is longer than half an interval, and than the window of a day's growth. -/
theorem interval_lt_retention (p : Policy) : p.interval / 2 < p.retention ∧
    93600000 ≤ p.retention := by
  obtain ⟨⟨-, h1⟩, h2, -⟩ := p.limits
  have h1' : (p.sampleIntervalMin : ℚ) ≤ 120 := by exact_mod_cast h1
  have h2' : (2 : ℚ) ≤ p.historyRetentionDays := by exact_mod_cast h2
  unfold Policy.interval Policy.retention
  constructor <;> linarith

/-- What is recent at the later of two times is recent at the earlier one. -/
theorem filter_recent {ks : List (Sample α)} {now now' : ℚ} (hle : now ≤ now')
    (hks : ∀ k ∈ ks, k.ts ≤ now) :
    (ks.filter (recent p test now)).filter (recent p test now') = ks.filter (recent p test now') := by
  rw [List.filter_filter]
  refine List.filter_congr fun k hk => ?_
  have hi := interval_nonneg p
  have hk' := hks k hk
  by_cases h : recent p test now' k = true
  · have h' := h
    simp only [recent, decide_eq_true_eq] at h'
    rw [h, Bool.true_and]
    simp only [recent, decide_eq_true_eq]
    exact ⟨h'.1, by linarith, by linarith⟩
  · simp [h]

/-- **One sample** keeps the shape. -/
theorem Shape.track {h : List (Sample α)} {last : Sample α} (hx : x.test = test)
    (hlast : last.test = test) (hle : last.ts ≤ x.ts) (hs : Shape p test (xs ++ [last]) h last) :
    Shape p test (xs ++ [last] ++ [x]) (track p h x) x := by
  obtain ⟨ks, rfl, hkept, hsorted⟩ := hs
  have hpair := List.pairwise_append.1 hsorted
  have hks : ∀ k ∈ ks, k.ts ≤ last.ts := fun k hk => hpair.2.2 k hk last (by simp)
  have hfilter : ((ks.filter (recent p test last.ts)) ++ [last]).filter (recent p test x.ts) =
      ks.filter (recent p test x.ts) ++ [last].filter (recent p test x.ts) := by
    rw [List.filter_append, filter_recent hle hks]
  have hi := interval_nonneg p
  obtain ⟨hret, -⟩ := interval_lt_retention p
  -- what is kept afterwards, and that it is in order
  have key : ∀ ks' : List (Sample α), (∀ k ∈ ks', k.ts ≤ x.ts) →
      ks'.Pairwise (fun a b => a.ts ≤ b.ts) → (ks' ++ [x]).Pairwise fun a b => a.ts ≤ b.ts := by
    intro ks' hle' hp
    refine List.pairwise_append.2 ⟨hp, List.pairwise_singleton _ _, fun a ha b hb => ?_⟩
    rw [List.mem_singleton.1 hb]
    exact hle' a ha
  have hksx : ∀ k ∈ ks, k.ts ≤ x.ts := fun k hk => (hks k hk).trans hle
  have hksl : ∀ k ∈ ks ++ [last], k.ts ≤ x.ts := by
    intro k hk
    rcases List.mem_append.1 hk with hk | hk
    · exact hksx k hk
    · rw [List.mem_singleton.1 hk]
      exact hle
  unfold StorageHistory.track
  rw [hx, hfilter]
  by_cases hgap : p.interval / 2 ≤ x.ts - last.ts
  · -- the newest sample stays
    have hmem : ∀ y, y ∈ ks ++ [last] ↔ Kept p (xs ++ [last] ++ [x]) y := by
      intro y
      rw [kept_concat, ← hkept, List.mem_append, List.mem_singleton]
      simp [hgap]
    refine ⟨ks ++ [last], ?_, hmem, key _ hksl hsorted⟩
    have hent : enter p (ks.filter (recent p test x.ts) ++ [last].filter (recent p test x.ts)) x =
        (ks ++ [last]).filter (recent p test x.ts) ++ [x] := by
      rw [← List.filter_append]
      unfold enter
      cases hl : ((ks ++ [last]).filter (recent p test x.ts)).getLast? with
      | none => rfl
      | some l =>
        have hl' : l.ts ≤ last.ts := by
          have := (List.mem_filter.1 (List.mem_of_getLast? hl)).1
          rcases List.mem_append.1 this with h | h
          · exact hks l h
          · rw [List.mem_singleton.1 h]
        exact if_pos (by linarith)
    rw [hent, sortByTime_of_sorted]
    exact key _ (fun k hk => hksl k (List.mem_filter.1 hk).1) (hsorted.filter _)
  · -- the newest sample is recent, and is replaced
    have hmem : ∀ y, y ∈ ks ↔ Kept p (xs ++ [last] ++ [x]) y := by
      intro y
      rw [kept_concat, ← hkept]
      simp [hgap]
    refine ⟨ks, ?_, hmem, key ks hksx hpair.1⟩
    have hrec : recent p test x.ts last = true := by
      simp only [recent, decide_eq_true_eq]
      exact ⟨hlast, by linarith, by linarith⟩
    have hent : enter p (ks.filter (recent p test x.ts) ++ [last].filter (recent p test x.ts)) x =
        ks.filter (recent p test x.ts) ++ [x] := by
      rw [List.filter_singleton, hrec]
      simp [enter, hgap]
    rw [hent, sortByTime_of_sorted]
    exact key _ (fun k hk => hksx k (List.mem_filter.1 hk).1) (hpair.1.filter _)

/-- The history after a list of samples that ends with the given one. -/
theorem shape_foldl {last : Sample α} (h : Ordered test (xs ++ [last])) :
    Shape p test (xs ++ [last]) ((xs ++ [last]).foldl (track p) []) last := by
  induction xs using List.reverseRecOn generalizing last with
  | nil =>
    have hnone : ∀ y, ¬ Kept p [last] y := by
      rintro y ⟨pre, z, post, he, -⟩
      have := congrArg List.length he
      simp at this
      omega
    exact ⟨[], rfl, fun y => iff_of_false List.not_mem_nil (hnone y), List.pairwise_singleton _ _⟩
  | append_singleton xs l ih =>
    rw [List.foldl_append]
    have hl : l ∈ xs ++ [l] ++ [last] := by simp
    refine Shape.track (h.source last (by simp)) (h.source l hl) ?_ (ih h.left)
    exact (List.pairwise_append.1 h.order).2.2 l (by simp) last (by simp)

/-- A sample of about a day ago is kept. -/
def Dated (p : Policy) (xs : List (Sample α)) (now : ℚ) : Prop :=
  ∃ y, Kept p xs y ∧ 86400000 ≤ now - y.ts ∧ now - y.ts ≤ 93600000

/-- The samples that are kept, with the ages that growth may be measured from. -/
theorem Shape.dated {h : List (Sample α)} {last : Sample α} (hs : Shape p test xs h last)
    (hx : ∀ x ∈ xs, x.test = test) :
    Dated p xs last.ts ↔ ∃ y ∈ h, 86400000 ≤ last.ts - y.ts ∧ last.ts - y.ts ≤ 93600000 := by
  obtain ⟨ks, rfl, hkept, hsorted⟩ := hs
  have hi := interval_nonneg p
  obtain ⟨-, hret⟩ := interval_lt_retention p
  constructor
  · rintro ⟨y, hy, hage⟩
    refine ⟨y, List.mem_append_left _ (List.mem_filter.2 ⟨(hkept y).2 hy, ?_⟩), hage⟩
    simp only [recent, decide_eq_true_eq]
    exact ⟨hx y hy.mem, by linarith [hage.2], by linarith [hage.1]⟩
  · rintro ⟨y, hy, hage⟩
    rcases List.mem_append.1 hy with hy | hy
    · exact ⟨y, (hkept y).1 (List.mem_filter.1 hy).1, hage⟩
    · rw [List.mem_singleton.1 hy] at hage
      linarith [hage.1]

theorem Shape.sorted {h : List (Sample α)} {last : Sample α} (hs : Shape p test xs h last) :
    h.Pairwise fun a b => a.ts ≤ b.ts := by
  obtain ⟨ks, rfl, -, hsorted⟩ := hs
  exact hsorted.sublist (List.filter_sublist.append_right _)

/-- The last element of a part of a list in order. -/
theorem le_getLast {h : List (Sample α)} (hs : h.Pairwise fun a b => a.ts ≤ b.ts) {y : Sample α}
    (hy : y ∈ h) : ∃ z, h.getLast? = some z ∧ z ∈ h ∧ y.ts ≤ z.ts := by
  induction h using List.reverseRecOn with
  | nil => cases hy
  | append_singleton h z _ =>
    refine ⟨z, by simp, by simp, ?_⟩
    rcases List.mem_append.1 hy with hy | hy
    · exact (List.pairwise_append.1 hs).2.2 y hy z (by simp)
    · rw [List.mem_singleton.1 hy]

end

/-! ## Growth -/

section
variable {p : Policy} {test : Bool}

theorem point_isSome {xs h : List (Sample ℚ)} {last : Sample ℚ} (hs : Shape p test xs h last)
    (hx : ∀ x ∈ xs, x.test = test) :
    (∃ x, point h last.ts 86400000 = some x ∧ x ∈ h ∧ |last.ts - x.ts - 86400000| ≤ 7200000) ↔
      Dated p xs last.ts := by
  rw [hs.dated hx]
  constructor
  · rintro ⟨x, hpoint, hmem, habs⟩
    obtain ⟨hlast, -⟩ := Option.filter_eq_some_iff.1 hpoint
    have hage := (List.mem_filter.1 (List.mem_of_getLast? hlast)).2
    simp only [decide_eq_true_eq] at hage
    obtain ⟨-, hle⟩ := abs_le.1 habs
    exact ⟨x, hmem, by linarith, by linarith⟩
  · rintro ⟨y, hy, h24, h26⟩
    have hyf : y ∈ h.filter fun x => x.ts ≤ last.ts - 86400000 := by
      refine List.mem_filter.2 ⟨hy, ?_⟩
      simp only [decide_eq_true_eq]
      linarith
    obtain ⟨z, hz, hzmem, hyz⟩ := le_getLast (hs.sorted.filter _) hyf
    obtain ⟨hzh, hzage⟩ := List.mem_filter.1 hzmem
    simp only [decide_eq_true_eq] at hzage
    have habs : |last.ts - z.ts - 86400000| ≤ 7200000 := abs_le.2 ⟨by linarith, by linarith⟩
    exact ⟨z, Option.filter_eq_some_iff.2 ⟨hz, by simpa using habs⟩, hzh, habs⟩

theorem baseline_isSome {xs h : List (Sample Categories)} {last : Sample Categories}
    (hs : Shape p test xs h last) (hx : ∀ x ∈ xs, x.test = test) :
    (∃ b, baseline h last.ts = some b) ↔ Dated p xs last.ts := by
  rw [hs.dated hx]
  constructor
  · rintro ⟨b, hb⟩
    obtain ⟨hbh, hage⟩ := List.mem_filter.1 (List.mem_of_getLast? hb)
    simp only [decide_eq_true_eq] at hage
    exact ⟨b, hbh, by linarith [hage.1], hage.2.2⟩
  · rintro ⟨y, hy, h24, h26⟩
    have hyf : y ∈ h.filter fun x => x.ts ≤ last.ts - 86400000 ∧ 79200000 ≤ last.ts - x.ts ∧
        last.ts - x.ts ≤ 93600000 := by
      refine List.mem_filter.2 ⟨hy, ?_⟩
      simp only [decide_eq_true_eq]
      exact ⟨by linarith, by linarith, h26⟩
    obtain ⟨z, hz, -⟩ := le_getLast (hs.sorted.filter _) hyf
    exact ⟨z, hz⟩

end

/-! ## Runs -/

/-- The sample of a call. -/
def Call.sample (c : Call) : Sample ℚ := ⟨c.now, c.used, c.testMode⟩

def Call.categorySample (c : Call) : Sample Categories := ⟨c.now, c.categories, c.testMode⟩

/-- Calls of one mode under one policy. -/
structure Same (p : Policy) (test : Bool) (calls : List Call) : Prop where
  policy : ∀ c ∈ calls, c.policy = p
  mode : ∀ c ∈ calls, c.testMode = test

theorem run_history {p : Policy} {test : Bool} {calls : List Call} (h : Same p test calls) :
    (run calls test).history = (calls.map Call.sample).foldl (track p) [] ∧
    ((∀ c ∈ calls, c.categories ≠ []) → (run calls test).categoryHistory =
      (calls.map Call.categorySample).foldl (track p) []) := by
  induction calls using List.reverseRecOn with
  | nil => exact ⟨rfl, fun _ => rfl⟩
  | append_singleton calls c ih =>
    have hc : c ∈ calls ++ [c] := by simp
    obtain ⟨ih1, ih2⟩ := ih ⟨fun d hd => h.policy d (List.mem_append_left _ hd),
      fun d hd => h.mode d (List.mem_append_left _ hd)⟩
    have hrun : run (calls ++ [c]) test = c.store (run calls test) := by
      rw [run, List.foldl_append]
      show (if test = c.testMode then _ else _) = _
      rw [if_pos (h.mode c hc).symm]
      rfl
    rw [hrun, List.map_append, List.map_append, List.foldl_append, List.foldl_append, ← ih1]
    refine ⟨?_, fun hcat => ?_⟩
    · show track c.policy _ _ = track p _ _
      rw [h.policy c hc]
      rfl
    · rw [← ih2 fun d hd => hcat d (List.mem_append_left _ hd)]
      show (if c.categories = [] then _ else _) = _
      rw [if_neg (hcat c hc), h.policy c hc]
      rfl

/-- The growth over a day is known at the last call, from a sample whose age is within two hours of
    a day; and so is the sample that the categories are compared with, if every call has some. -/
structure Covered (test : Bool) (calls : List Call) (last : Call) : Prop where
  growth : ∃ x ∈ (run (calls ++ [last]) test).history, |last.now - x.ts - 86400000| ≤ 7200000 ∧
    (last.analysis (run calls test)).growth24h = some (round (last.used - x.value))
  categories : (∀ c ∈ calls ++ [last], c.categories ≠ []) →
    ∃ b, baseline (run (calls ++ [last]) test).categoryHistory last.now = some b

/-- A call of about a day before the last one is followed by a gap of half an interval. -/
def Spaced (p : Policy) (calls : List Call) (last : Call) : Prop :=
  ∃ pre c c' post, calls ++ [last] = pre ++ c :: c' :: post ∧ p.interval / 2 ≤ c'.now - c.now ∧
    86400000 ≤ last.now - c.now ∧ last.now - c.now ≤ 93600000

/-- The samples of the calls that are kept. -/
theorem dated_map {α : Type} {p : Policy} {f : Call → Sample α} (hf : ∀ c, (f c).ts = c.now)
    (calls : List Call) (last : Call) :
    Dated p ((calls ++ [last]).map f) (f last).ts ↔ Spaced p calls last := by
  constructor
  · rintro ⟨y, ⟨pre, z, post, he, hgap⟩, hage⟩
    obtain ⟨pre', rest, hcalls, -, hrest⟩ := List.map_eq_append_iff.1 he
    obtain ⟨c, rest, rfl, rfl, hmap⟩ := List.map_eq_cons_iff.1 hrest
    obtain ⟨c', post', rfl, rfl, -⟩ := List.map_eq_cons_iff.1 hmap
    simp only [hf] at hgap hage
    exact ⟨pre', c, c', post', hcalls, hgap, hage⟩
  · rintro ⟨pre, c, c', post, he, hgap, hage⟩
    simp only [Dated, hf]
    refine ⟨f c, ⟨pre.map f, f c', post.map f, by rw [he]; simp, by simpa only [hf] using hgap⟩, ?_⟩
    rw [hf]
    exact hage

/-- **The growth over a day is known exactly when a call of about a day ago was kept**, in every
    sequence of calls of one mode and policy. -/
theorem growth_covered {p : Policy} {test : Bool} {calls : List Call} {last : Call}
    (hsame : Same p test (calls ++ [last]))
    (horder : (calls ++ [last]).Pairwise fun c d => c.now ≤ d.now) :
    Covered test calls last ↔ Spaced p calls last := by
  have hlast : last ∈ calls ++ [last] := by simp
  obtain ⟨hhist, hcat⟩ := run_history hsame
  have hordered : ∀ {α : Type} (f : Call → Sample α), (∀ c, (f c).ts = c.now) →
      (∀ c, (f c).test = c.testMode) → Ordered test (calls.map f ++ [f last]) := by
    intro α f hts htest
    have hmap : calls.map f ++ [f last] = (calls ++ [last]).map f := by simp
    rw [hmap]
    refine ⟨fun x hx => ?_, List.pairwise_map.2 ?_⟩
    · obtain ⟨c, hc, rfl⟩ := List.mem_map.1 hx
      rw [htest]
      exact hsame.mode c hc
    · simpa only [hts] using horder
  have hgrowth : (last.analysis (run calls test)).growth24h =
      growth (run (calls ++ [last]) test).history last.now last.used 86400000 := by
    have hrun : run (calls ++ [last]) test = last.store (run calls test) := by
      rw [run, List.foldl_append]
      show (if test = last.testMode then _ else _) = _
      rw [if_pos (hsame.mode last hlast).symm]
      rfl
    rw [hrun]
    rfl
  have hsamples := hordered Call.sample (fun _ => rfl) fun _ => rfl
  have hshape : Shape p test ((calls ++ [last]).map Call.sample)
      (run (calls ++ [last]) test).history last.sample := by
    rw [hhist, List.map_append]
    exact shape_foldl hsamples
  have hpoint := point_isSome hshape (by rw [List.map_append]; exact hsamples.source)
  rw [dated_map (fun _ => rfl)] at hpoint
  constructor
  · rintro ⟨⟨x, hx, habs, hsome⟩, -⟩
    rw [hgrowth, growth, Option.map_eq_some_iff] at hsome
    obtain ⟨y, hy, -⟩ := hsome
    refine hpoint.1 ⟨y, hy, ?_, ?_⟩
    · have := (Option.filter_eq_some_iff.1 hy).1
      exact (List.mem_filter.1 (List.mem_of_getLast? this)).1
    · exact of_decide_eq_true (Option.filter_eq_some_iff.1 hy).2
  · intro hspaced
    obtain ⟨x, hx, hmem, habs⟩ := hpoint.2 hspaced
    refine ⟨⟨x, hmem, habs, ?_⟩, fun hne => ?_⟩
    · rw [hgrowth, growth]
      exact Option.map_eq_some_iff.2 ⟨x, hx, rfl⟩
    · have hcats := hordered Call.categorySample (fun _ => rfl) fun _ => rfl
      have hshape' : Shape p test ((calls ++ [last]).map Call.categorySample)
          (run (calls ++ [last]) test).categoryHistory last.categorySample := by
        rw [hcat hne, List.map_append]
        exact shape_foldl hcats
      have hbase := baseline_isSome hshape' (by rw [List.map_append]; exact hcats.source)
      exact hbase.2 ((dated_map (fun _ => rfl) calls last).2 hspaced)

/-- The plain schedule is spaced: gaps between half an interval and an interval of at most an hour,
    over more than 26 hours. -/
theorem spaced_of_schedule {p : Policy} {first last : Call} {calls : List Call}
    (hd : p.sampleIntervalMin ≤ 60) (hspan : 86400000 ≤ last.now - first.now)
    (hgaps : (first :: calls ++ [last]).IsChain fun c d =>
      p.interval / 2 ≤ d.now - c.now ∧ d.now - c.now ≤ p.interval) :
    Spaced p (first :: calls) last := by
  have hhour : p.interval ≤ 3600000 := by
    have : (p.sampleIntervalMin : ℚ) ≤ 60 := by exact_mod_cast hd
    unfold Policy.interval
    linarith
  -- the last call that is a day old: the next one is at most an hour later
  induction calls generalizing first with
  | nil =>
    have hgap := (List.isChain_cons_cons.1 hgaps).1
    linarith [hgap.2]
  | cons c calls ih =>
    obtain ⟨hgap, hrest⟩ := List.isChain_cons_cons.1 hgaps
    by_cases h24 : 86400000 ≤ last.now - c.now
    · obtain ⟨pre, d, d', post, he, h⟩ := ih h24 hrest
      exact ⟨first :: pre, d, d', post, by rw [List.cons_append, he]; rfl, h⟩
    · exact ⟨[], first, c, calls ++ [last], rfl, hgap.1, hspan, by linarith [hgap.2]⟩

/-! ## Samples -/

/-- A call every so many minutes under an hourly schedule, without categories. -/
def every (minutes i : ℕ) : Call where
  policy := ⟨60, 2, by decide⟩
  now := minutes * i * 60000
  used := 50
  testMode := false
  categories := []
  labels _ := none

theorem same_every (minutes : ℕ) (is : List ℕ) :
    Same ⟨60, 2, by decide⟩ false (is.map (every minutes)) := by
  constructor <;>
  · intro c hc
    obtain ⟨i, -, rfl⟩ := List.mem_map.1 hc
    rfl

theorem growth_covered_sample :
    Covered false ((List.range 27).map (every 60)) (every 60 27) := by
  have hspaced : Spaced ⟨60, 2, by decide⟩ ((List.range 27).map (every 60)) (every 60 27) :=
    spaced_of_schedule (by decide) (by decide +kernel) (by decide +kernel)
  exact (growth_covered (same_every 60 (List.range 28)) (by decide +kernel)).2 hspaced

/-- Calls every 24 minutes for more than 26 hours, at most an hour apart: each replaces the sample
    of the one before, and the growth stays unknown. -/
theorem growth_lost :
    (((List.range 66).map (every 24) ++ [every 24 66]).IsChain fun c d =>
      c.now ≤ d.now ∧ d.now - c.now ≤ 60 * 60000) ∧
    93600000 < (every 24 66).now - (every 24 0).now ∧
    ¬ Covered false ((List.range 66).map (every 24)) (every 24 66) := by
  refine ⟨by decide +kernel, by decide +kernel, fun h => ?_⟩
  obtain ⟨x, -, -, hx⟩ := h.growth
  have hnone : ((every 24 66).analysis (run ((List.range 66).map (every 24)) false)).growth24h =
      none := by decide +kernel
  rw [hnone] at hx
  cases hx

end SmartHome.StorageHistory
