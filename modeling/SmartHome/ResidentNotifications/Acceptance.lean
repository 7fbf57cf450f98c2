/-
  An accepted cycle is not notified again, and an event is dispatched at most three times.
-/
import SmartHome.ResidentNotifications.Safety

namespace SmartHome.ResidentNotifications

open Verif

variable {arrives : Arrival → Prop} {c c' : Context} {ch : Channel} {now : ℚ} {m : Message}
  {n : Notice} {out : List Message} {r r' : Recipient} {history : List (Handled Context Message)}
  {cycle : String}

/-! ## Accepted cycles -/

/-- Of two cycles of a resident, all events of the one are before all events of the other. -/
def CyclesOrdered (arrives : Arrival → Prop) : Prop :=
  ∀ mode source k k', k ≠ k' →
    let events := fun k a => arrives a ∧ a.mode = mode ∧ a.source = source ∧ a.cycle = some k
    (∀ a a', events k a → events k' a' → a.eventAt < a'.eventAt) ∨
      ∀ a a', events k a → events k' a' → a'.eventAt < a.eventAt

/-- The channel is done with the cycle: its last acceptance was of the cycle, or of an event after
    all events of it. -/
def Closed (arrives : Arrival → Prop) (c : Context) (ch : Channel) (cycle : String) : Prop :=
  ∃ r, c.at ch = some r ∧ r.pendingKey ≠ some (.cycle cycle) ∧
    ∃ a k, arrives a ∧ (a.mode, a.source) = ch ∧ a.cycle = some k ∧ r.acceptedKey = some (.cycle k) ∧
      r.acceptedEventAt = some a.eventAt ∧
        (k = cycle ∨ ∀ a', arrives a' → (a'.mode, a'.source) = ch → a'.cycle = some cycle →
          a'.eventAt < a.eventAt)

theorem key_eq_cycle {a : Arrival} (h : a.key = .cycle cycle) : a.cycle = some cycle := by
  unfold Arrival.key at h
  split at h
  · rename_i hid
    rw [hid, Key.cycle.inj h]
  · cases h

theorem key_of_cycle {a : Arrival} (h : a.cycle = some cycle) : a.key = .cycle cycle := by
  unfold Arrival.key
  rw [h]

/-- A closed cycle gets no reservation. -/
theorem Closed.duplicate (hclosed : Closed arrives c n.channel cycle) (harrives : arrives n.arrival)
    (hcycle : n.arrival.cycle = some cycle) : ((c.at n.channel).getD .empty).duplicate n.arrival now := by
  obtain ⟨r, hr, -, a, k, -, -, -, hkey, hevent, hk⟩ := hclosed
  rw [hr, Option.getD_some]
  rcases hk with rfl | hbefore
  · refine Or.inr (Or.inr (Or.inl ⟨?_, Or.inr ?_⟩))
    · rw [hkey, key_of_cycle hcycle]
    · rw [hcycle]; rfl
  · exact Or.inl ⟨_, hevent, hbefore _ harrives rfl hcycle⟩

theorem accepts_of_change (now : ℚ) (hm : m = .deliveryAck n ∨ m = .dryRun n) (hfits : Fits arrives m c)
    (hr : c.at n.channel = some r) (htoken : r.pendingToken = n.reservation) :
    n.Genuine arrives ∧ n.Held c ∧ Accepts n ⟨m, now, c⟩ := by
  have hgenuine : n.Genuine arrives ∧ n.Held c := by rcases hm with rfl | rfl <;> exact hfits
  obtain ⟨r', hr', hcalled⟩ := hgenuine.2.called
  obtain rfl := Option.some.inj (hr.symm.trans hr')
  refine ⟨hgenuine.1, hgenuine.2, hm, ?_⟩
  rw [show n.called _ = some r from hcalled]
  exact htoken

theorem closed_of_accepts (hfits : Fits arrives m c) (hchange : Change now c m (c', out))
    (haccepts : Accepts n ⟨m, now, c⟩) (hcycle : n.arrival.cycle = some cycle) :
    Closed arrives c' n.channel cycle := by
  cases hchange with
  | quiet hno => exact absurd haccepts (hno n)
  | @accept m n' r hm hr htoken =>
    obtain rfl : n' = n := by
      rcases hm with rfl | rfl <;> rcases haccepts.1 with h | h <;> cases h <;> rfl
    obtain ⟨hgenuine, -⟩ := accepts_of_change now hm hfits hr htoken
    refine ⟨r.accept n'.arrival now, ?_, (Option.some_ne_none _).symm, n'.arrival, cycle, hgenuine.1, rfl,
      hcycle, ?_, rfl, Or.inl rfl⟩
    · rw [at_amend]
      exact if_pos rfl
    · rw [← key_of_cycle hcycle]
      rfl
  | found => rcases haccepts.1 with h | h <;> cases h
  | migrate => rcases haccepts.1 with h | h <;> cases h
  | reserve => rcases haccepts.1 with h | h <;> cases h
  | pass => rcases haccepts.1 with h | h <;> cases h
  | release => rcases haccepts.1 with h | h <;> cases h

/-- A cycle stays closed as long as only notices with cycles are accepted. -/
theorem closed_step (hordered : CyclesOrdered arrives) (hsound : Sound arrives c history)
    (hfits : Fits arrives m c) (hchange : Change now c m (c', out)) (hclosed : Closed arrives c ch cycle)
    (hcycles : ∀ n, Accepts n ⟨m, now, c⟩ → n.channel = ch → n.arrival.cycle ≠ none) :
    Closed arrives c' ch cycle := by
  cases hchange with
  | quiet => exact hclosed
  | found => exact hclosed
  | @migrate n d hnone =>
    obtain ⟨r, hr, hrest⟩ := hclosed
    refine ⟨r, ?_, hrest⟩
    rw [at_set]
    split_ifs with hmode
    · rw [at_of_delivery_none (hmode ▸ hnone)] at hr
      cases hr
    · exact hr
  | @reserve n r₀ r₁ token hr₀ hdup htoken hr₁ =>
    by_cases heq : ch = n.channel
    · subst heq
      obtain ⟨r, hr, -, hrest⟩ := id hclosed
      obtain rfl : r₀ = r := by rw [hr₀, hr]; rfl
      refine ⟨r₁, by rw [at_reserve, if_pos rfl], fun hpending => ?_, by rw [hr₁]; exact hrest⟩
      -- the reservation is not of the cycle, or else the notice were a duplicate
      rw [hr₁] at hpending
      have hcycle := key_eq_cycle (Option.some.inj hpending)
      exact hdup (hr₀ ▸ hclosed.duplicate hfits.1 hcycle)
    · obtain ⟨r, hr, hrest⟩ := hclosed
      exact ⟨r, by rw [at_reserve, if_neg heq]; exact hr, hrest⟩
  | @pass n n' r₀ hr₀ =>
    obtain ⟨r, hr, hrest⟩ := hclosed
    by_cases heq : ch = n.channel
    · subst heq
      obtain rfl := Option.some.inj (hr₀.symm.trans hr)
      exact ⟨{ r₀ with pendingDispatched := true }, by rw [at_amend, if_pos rfl], hrest⟩
    · exact ⟨r, by rw [at_amend, if_neg heq]; exact hr, hrest⟩
  | @accept m n r₀ hm hr₀ htoken =>
    obtain ⟨r, hr, hpending, a, k, harrives, ha, hk, hkey, hevent, hbefore⟩ := hclosed
    by_cases heq : ch = n.channel
    · subst heq
      obtain rfl := Option.some.inj (hr₀.symm.trans hr)
      obtain ⟨hgenuine, hheld, haccepts⟩ := accepts_of_change now hm hfits hr htoken
      obtain ⟨k', hk'⟩ := Option.ne_none_iff_exists'.1 (hcycles n haccepts rfl)
      refine ⟨r₀.accept n.arrival now, by rw [at_amend, if_pos rfl], (Option.some_ne_none _).symm, n.arrival, k',
        hgenuine.1, rfl, hk', congrArg some (key_of_cycle hk'), rfl, ?_⟩
      -- the event is not before the one that was accepted last
      obtain ⟨token, hres, -, r₂, hr₂, hpendingEvent⟩ := hheld
      obtain rfl := Option.some.inj (hr.symm.trans hr₂)
      obtain ⟨u, hu, hle⟩ := hsound.accepted _ _ _ hr hevent
      obtain rfl := Option.some.inj (hu.symm.trans (hpendingEvent (htoken.trans hres)))
      rcases hbefore with rfl | hbefore
      · by_cases hkk : k' = k
        · exact Or.inl hkk
        · refine Or.inr fun a' ha' hch' hcycle' => ?_
          have hchannel : ∀ b : Arrival, (b.mode, b.source) = n.channel →
              b.mode = n.arrival.mode ∧ b.source = n.arrival.source := fun b hb => Prod.mk.inj hb
          obtain ⟨hmode, hsource⟩ := hchannel a ha
          obtain ⟨hmode', hsource'⟩ := hchannel a' hch'
          rcases hordered n.arrival.mode n.arrival.source k k' (Ne.symm hkk) with hlt | hlt
          · exact hlt a' n.arrival ⟨ha', hmode', hsource', hcycle'⟩ ⟨hgenuine.1, rfl, rfl, hk'⟩
          · have := hlt a n.arrival ⟨harrives, hmode, hsource, hk⟩ ⟨hgenuine.1, rfl, rfl, hk'⟩
            exact absurd this (not_lt.2 hle)
      · exact Or.inr fun a' ha' hch' hcycle' => (hbefore a' ha' hch' hcycle').trans_le hle
    · exact ⟨r, by rw [at_amend, if_neg heq]; exact hr, hpending, a, k, harrives, ha, hk, hkey, hevent,
        hbefore⟩
  | @release n r₀ hr₀ =>
    obtain ⟨r, hr, hpending, hrest⟩ := hclosed
    by_cases heq : ch = n.channel
    · subst heq
      obtain rfl := Option.some.inj (hr₀.symm.trans hr)
      exact ⟨r₀.release, by rw [at_amend, if_pos rfl], (Option.some_ne_none _).symm, hrest⟩
    · exact ⟨r, by rw [at_amend, if_neg heq]; exact hr, hpending, hrest⟩

/-- A notice that passes is of no cycle that was accepted before, unless a notice without a cycle
    was accepted since. -/
def NotRepeated (before : List (Handled Context Message)) (h : Handled Context Message) : Prop :=
  ∀ n', Passes n' h → ∀ early x late, before = early ++ x :: late → ∀ n cycle, Accepts n x →
    n.channel = n'.channel → n.arrival.cycle = some cycle → n'.arrival.cycle = some cycle →
      ∃ y ∈ late, ∃ n'', Accepts n'' y ∧ n''.channel = n.channel ∧ n''.arrival.cycle = none

/-- The cycles that were accepted are closed. -/
def AcceptedClosed (arrives : Arrival → Prop) (c : Context) (history : List (Handled Context Message)) :
    Prop :=
  ∀ early x late, history = early ++ x :: late → ∀ n cycle, Accepts n x → n.arrival.cycle = some cycle →
    (∀ y ∈ late, ∀ n', Accepts n' y → n'.channel = n.channel → n'.arrival.cycle ≠ none) →
      Closed arrives c n.channel cycle

theorem acceptedClosed_step (hordered : CyclesOrdered arrives) (hsound : Sound arrives c history)
    (hfits : Fits arrives m c) (h : AcceptedClosed arrives c history) :
    AcceptedClosed arrives (nodes now m c).1 (history ++ [⟨m, now, c⟩]) := by
  have hchange : Change now c m ((nodes now m c).1, (nodes now m c).2) := change_of_fits hfits
  intro early x late hsplit n cycle haccepts hcycle hcycles
  rcases split_concat hsplit with ⟨-, -, rfl⟩ | ⟨rest, rfl, hearlier⟩
  · exact closed_of_accepts hfits hchange haccepts hcycle
  · have hclosed := h early x rest hearlier n cycle haccepts hcycle fun y hy =>
      hcycles y (List.mem_append_left _ hy)
    exact closed_step hordered hsound hfits hchange hclosed
      (hcycles _ (List.mem_append_right _ (List.mem_singleton_self _)))

theorem notRepeated_of_closed (h : AcceptedClosed arrives c history) :
    NotRepeated history ⟨m, now, c⟩ := by
  intro n' hpasses early x late hsplit n cycle haccepts hch hcycle hcycle'
  by_contra hno
  push Not at hno
  obtain ⟨r, hr, hpending, -⟩ := h early x late hsplit n cycle haccepts hcycle hno
  obtain ⟨r', hr', -, hkey, -⟩ := passes_spec hpasses
  obtain rfl := Option.some.inj (hr'.symm.trans (hch ▸ hr))
  exact hpending (hkey.trans (congrArg some (key_of_cycle hcycle')))

theorem notRepeated_flow (hordered : CyclesOrdered arrives) :
    FlowInvariant nodes (outside arrives) (fun c _ history =>
      Sound arrives c history ∧ AcceptedClosed arrives c history ∧ AtEach NotRepeated history)
      (fun m c _ => Fits arrives m c) where
  start c t hstart := by
    refine ⟨sound_flow.start c t hstart, fun early x late hsplit => ?_, atEach_nil⟩
    exact absurd hsplit.symm (List.append_ne_nil_of_right_ne_nil _ (List.cons_ne_nil _ _))
  enter b m h := sound_flow.enter b m h.1
  handle _ _ _ _ h hfits := ⟨sound_step h.1 hfits, acceptedClosed_step hordered h.1 hfits h.2.1,
    h.2.2.concat (notRepeated_of_closed h.2.1)⟩
  sent _ _ _ _ h := sound_flow.sent _ _ _ _ h.1
  kept _ _ _ _ _ h := sound_flow.kept _ _ _ _ _ h.1
  later _ _ _ _ h _ := ⟨h, fun _ hm => hm⟩
  others c c' _ _ h hothers := by
    obtain rfl : c' = c := hothers
    exact ⟨h, fun _ hm => hm⟩

/-! ## Retries -/

/-- The message is the dispatch of a notice of the arrival. -/
def Message.isDispatchOf (a : Arrival) : Message → Bool
  | .dispatch n => n.arrival = a
  | _ => false

/-- How often the arrival was dispatched. -/
def dispatches (a : Arrival) (history : List (Handled Context Message)) : ℕ :=
  (history.flatMap (Handled.sent nodes)).countP (Message.isDispatchOf a)

/-- How many dispatches of the arrival may still come of a message. -/
def Message.tries (a : Arrival) : Message → ℕ
  | .stateMigrate n | .stateRead n | .stateWrite n => if n.arrival = a then 3 - n.retryCount else 0
  | _ => 0

/-- The message is the arrival as it comes in. -/
def Message.isEntryOf (a : Arrival) : Message → Bool
  | .stateMigrate n => n.arrival = a
  | _ => false

/-- The dispatches of the arrival among messages, and those that may still come of them. -/
def cost (a : Arrival) (out : List Message) : ℕ :=
  out.countP (Message.isDispatchOf a) + (out.map (Message.tries a)).sum

/-- The dispatches of the arrival so far, and those that may still come. -/
def spent (a : Arrival) (b : Board Context Message) : ℕ :=
  dispatches a b.history + (b.waiting.map (Message.tries a)).sum

variable {a : Arrival} {b : Board Context Message}

theorem spent_handle {before after : List Message} (hwaiting : b.waiting = before ++ m :: after) :
    spent a (b.handle nodes before m after) + m.tries a = spent a b + cost a (nodes b.time m b.context).2 := by
  unfold spent dispatches cost Board.handle
  simp only [hwaiting, List.flatMap_append, List.flatMap_cons, List.flatMap_nil, List.append_nil,
    List.countP_append, List.map_append, List.map_cons, List.sum_append, List.sum_cons, Handled.sent]
  omega

@[simp] theorem cost_nil : cost a [] = 0 := rfl

@[simp] theorem cost_stateRead : cost a [.stateRead n] = if n.arrival = a then 3 - n.retryCount else 0 := by
  simp [cost, Message.isDispatchOf, Message.tries]

@[simp] theorem cost_stateWrite : cost a [.stateWrite n] = if n.arrival = a then 3 - n.retryCount else 0 := by
  simp [cost, Message.isDispatchOf, Message.tries]

@[simp] theorem cost_dispatch : cost a [.dispatch n] = if n.arrival = a then 1 else 0 := by
  simp only [cost, Message.tries, Message.isDispatchOf, List.countP_singleton, List.map_cons, List.map_nil,
    List.sum_cons, List.sum_nil, decide_eq_true_eq, add_zero]

/-- The notice has the reservation and the key that are pending. -/
def Notice.Pending (n : Notice) (c : Context) : Prop :=
  ∃ r, c.at n.channel = some r ∧ r.pendingKey = some n.arrival.key ∧ r.pendingToken = n.reservation

/-- What is sent costs what the message could cost, and only the failure of a pending notice buys a
    try. -/
theorem cost_of_change (hfits : Fits arrives m c) (hchange : Change now c m (c', out)) :
    cost a out ≤ m.tries a ∨
      ∃ n, m = .deliveryFailure n ∧ n.Pending c ∧ n.arrival = a ∧ cost a out ≤ 2 - n.retryCount := by
  cases hchange with
  | quiet => exact Or.inl (Nat.zero_le _)
  | found => exact Or.inl cost_stateRead.le
  | migrate => exact Or.inl cost_stateRead.le
  | reserve => exact Or.inl cost_stateWrite.le
  | @pass n n' r hr htoken hkey hdispatched hn' =>
    have hretry : n.retryCount ≤ 2 := hfits.1.2
    refine Or.inl ?_
    rw [hn', cost_dispatch]
    simp only [Message.tries]
    split_ifs <;> omega
  | accept => exact Or.inl (Nat.zero_le _)
  | @release n r hr htoken hkey =>
    by_cases ha : n.arrival = a
    · refine Or.inr ⟨n, rfl, ⟨r, hr, hkey, htoken⟩, ha, ?_⟩
      split_ifs
      · rw [cost_stateRead, show n.retry.arrival = n.arrival from rfl, if_pos ha]
        exact le_of_eq (Nat.add_sub_add_right 2 1 n.retryCount)
      · exact Nat.zero_le _
    · refine Or.inl ?_
      split_ifs
      · rw [cost_stateRead, show n.retry.arrival = n.arrival from rfl, if_neg ha]
        exact Nat.zero_le _
      · exact Nat.zero_le _

/-- A dispatched notice that is still pending was not touched. -/
theorem pending_of_change (hpast : n.Past arrives c) (ha : n.arrival = a)
    (hchange : Change now c m (c', out)) (hpending : n.Pending c') :
    n.Pending c ∧ cost a out ≤ m.tries a := by
  obtain ⟨r', hr', hkey, htoken⟩ := hpending
  obtain ⟨-, ⟨token, hres, hle, -⟩, hspent⟩ := hpast
  have hother : ∀ n₀ : Notice, n.channel ≠ n₀.channel → n₀.arrival ≠ a := by
    intro n₀ hne heq
    exact hne (by rw [Notice.channel, Notice.channel, heq, ha])
  cases hchange with
  | quiet => exact ⟨⟨r', hr', hkey, htoken⟩, Nat.zero_le _⟩
  | found => exact ⟨⟨r', hr', hkey, htoken⟩, cost_stateRead.le⟩
  | migrate _ hempty =>
    rw [at_set] at hr'
    split_ifs at hr' with hmode
    · rw [(hempty _ _ hr').1, hres] at htoken
      cases htoken
    · exact ⟨⟨r', hr', hkey, htoken⟩, cost_stateRead.le⟩
  | @reserve n₀ r r₂ t hr hdup ht hr₂ =>
    rw [at_reserve] at hr'
    split_ifs at hr' with heq
    · obtain rfl := Option.some.inj hr'
      rw [hr₂] at htoken
      obtain rfl := Option.some.inj (htoken.trans hres)
      rw [ht, show n.arrival.mode = n₀.arrival.mode from congrArg Prod.fst heq] at hle
      exact absurd hle (Nat.not_succ_le_self _)
    · exact ⟨⟨r', hr', hkey, htoken⟩, cost_stateWrite.le⟩
  | @pass n₀ _ r hr htoken₀ _ hdispatched hn' =>
    rw [at_amend] at hr'
    split_ifs at hr' with heq
    · obtain rfl := Option.some.inj hr'
      exact absurd (hspent r (heq ▸ hr) htoken) hdispatched
    · refine ⟨⟨r', hr', hkey, htoken⟩, ?_⟩
      rw [hn', cost_dispatch, if_neg (hother n₀ heq)]
      exact Nat.zero_le _
  | accept =>
    rw [at_amend] at hr'
    split_ifs at hr'
    · obtain rfl := Option.some.inj hr'
      cases hkey
    · exact ⟨⟨r', hr', hkey, htoken⟩, Nat.zero_le _⟩
  | @release n₀ r =>
    rw [at_amend] at hr'
    split_ifs at hr' with heq
    · obtain rfl := Option.some.inj hr'
      cases hkey
    · refine ⟨⟨r', hr', hkey, htoken⟩, ?_⟩
      split_ifs
      · rw [cost_stateRead, if_neg (hother n₀.retry heq)]
        exact Nat.zero_le _
      · exact Nat.zero_le _

/-- A dispatch leaves its retries. -/
theorem cost_of_dispatch (hfits : Fits arrives m c) (hchange : Change now c m (c', out))
    (hsent : .dispatch n ∈ out) (ha : n.arrival = a) : cost a out + (2 - n.retryCount) ≤ m.tries a := by
  cases hchange with
  | quiet => cases hsent
  | found => cases List.mem_singleton.1 hsent
  | migrate => cases List.mem_singleton.1 hsent
  | reserve => cases List.mem_singleton.1 hsent
  | @pass n₀ _ r _ _ _ _ hn' =>
    have hretry : n₀.retryCount ≤ 2 := hfits.1.2
    obtain rfl := Message.dispatch.inj (List.mem_singleton.1 hsent)
    subst hn'
    replace ha : n₀.arrival = a := ha
    rw [cost_dispatch, Message.tries, if_pos ha, if_pos ha]
    show 1 + (2 - n₀.retryCount) ≤ 3 - n₀.retryCount
    omega
  | accept => cases hsent
  | release =>
    split_ifs at hsent
    · cases List.mem_singleton.1 hsent
    · cases hsent

/-- No node sends a failure. -/
theorem no_failure_sent (hchange : Change now c m (c', out)) : .deliveryFailure n ∉ out := by
  intro hsent
  cases hchange with
  | quiet => cases hsent
  | found => cases List.mem_singleton.1 hsent
  | migrate => cases List.mem_singleton.1 hsent
  | reserve => cases List.mem_singleton.1 hsent
  | pass => cases List.mem_singleton.1 hsent
  | accept => cases hsent
  | release =>
    split_ifs at hsent
    · cases List.mem_singleton.1 hsent
    · cases hsent

/-- All dispatches are of the arrival as it came in, with at most two retries each. -/
structure Budgeted (a : Arrival) (b : Board Context Message) : Prop where
  entries : b.entered.countP (Message.isEntryOf a) ≤ 1
  within : spent a b ≤ 3 * b.entered.countP (Message.isEntryOf a)
  /-- A failure of a pending notice may lead to another try. -/
  pending : ∀ n, Dispatched b n → n.arrival = a → n.Pending b.context →
    spent a b + (2 - n.retryCount) ≤ 3 * b.entered.countP (Message.isEntryOf a)
  failures : ∀ n, .deliveryFailure n ∈ b.waiting → Dispatched b n

theorem budgeted_handle {before after : List Message} (hb : (noticeMachine arrives).Reachable b)
    (h : Budgeted a b) (hwaiting : b.waiting = before ++ m :: after) :
    Budgeted a (b.handle nodes before m after) := by
  obtain ⟨hsound, hfits⟩ := sound_flow.reachable hb
  have hmem : m ∈ b.waiting := hwaiting ▸ List.mem_append_right _ List.mem_cons_self
  have hchange : Change b.time b.context m ((nodes b.time m b.context).1, (nodes b.time m b.context).2) :=
    change_of_fits (hfits m hmem)
  have hspent := spent_handle (a := a) hwaiting
  have hwithin := h.within
  have hdispatched : ∀ n, Dispatched b n → Dispatched (b.handle nodes before m after) n := by
    intro n hn
    obtain ⟨x, hx, hsent⟩ := hn
    exact ⟨x, List.mem_append_left _ hx, hsent⟩
  refine ⟨h.entries, ?_, fun n hn ha hpending => ?_, fun n hn => hdispatched n (h.failures n ?_)⟩
  · show spent a (b.handle nodes before m after) ≤ 3 * b.entered.countP (Message.isEntryOf a)
    rcases cost_of_change (a := a) (hfits m hmem) hchange with hcost | ⟨n, rfl, hpending, ha, hcost⟩
    · omega
    · have := h.pending n (h.failures n hmem) ha hpending
      omega
  · show spent a (b.handle nodes before m after) + _ ≤ 3 * b.entered.countP (Message.isEntryOf a)
    obtain ⟨x, hx, hsent⟩ := hn
    rcases List.mem_append.1 hx with hx | hx
    · obtain ⟨hpending, hcost⟩ := pending_of_change (hsound.dispatched x hx n hsent) ha hchange hpending
      have := h.pending n ⟨x, hx, hsent⟩ ha hpending
      omega
    · obtain rfl := List.mem_singleton.1 hx
      have := cost_of_dispatch (hfits m hmem) hchange hsent ha
      omega
  · rcases List.mem_append.1 hn with hn | hn
    · rw [hwaiting]
      rcases List.mem_append.1 hn with hn | hn
      · exact List.mem_append_left _ hn
      · exact List.mem_append_right _ (List.mem_cons_of_mem _ hn)
    · exact absurd hn (no_failure_sent hchange)

theorem budgeted_enter (h : Budgeted a b) (henters : (outside arrives).enters b m) :
    Budgeted a { b with waiting := b.waiting ++ [m], entered := b.entered ++ [m] } := by
  -- an arrival pays for its own tries, and comes in once
  have hpays : m.tries a ≤ 3 * [m].countP (Message.isEntryOf a) ∧
      b.entered.countP (Message.isEntryOf a) + [m].countP (Message.isEntryOf a) ≤ 1 := by
    have hentries := h.entries
    cases m with
    | stateMigrate n =>
      obtain ⟨-, hretry, -, hfresh⟩ := henters
      by_cases ha : n.arrival = a
      · have hnone : b.entered.countP (Message.isEntryOf a) = 0 := by
          refine List.countP_eq_zero.2 fun m' hm' hentry => ?_
          cases m' with
          | stateMigrate n' => exact hfresh n' hm' (congrArg Arrival.id ((of_decide_eq_true hentry).trans ha.symm))
          | _ => cases hentry
        rw [hnone]
        simp [Message.tries, Message.isEntryOf, ha, hretry]
      · simpa [Message.tries, Message.isEntryOf, ha] using hentries
    | stateRead n => exact henters.elim
    | stateWrite n => exact henters.elim
    | _ => exact ⟨Nat.zero_le _, hentries⟩
  have hspent : spent a { b with waiting := b.waiting ++ [m], entered := b.entered ++ [m] } =
      spent a b + m.tries a := by
    simp only [spent, List.map_append, List.sum_append, List.map_cons, List.map_nil, List.sum_cons,
      List.sum_nil]
    omega
  have hcount : (b.entered ++ [m]).countP (Message.isEntryOf a) =
      b.entered.countP (Message.isEntryOf a) + [m].countP (Message.isEntryOf a) := List.countP_append
  have hwithin := h.within
  refine ⟨hcount.trans_le hpays.2, ?_, fun n hn ha hpending => ?_, fun n hn => ?_⟩
  · rw [hspent, hcount]
    omega
  · have := h.pending n hn ha hpending
    rw [hspent, hcount]
    omega
  · rcases List.mem_append.1 hn with hn | hn
    · exact h.failures n hn
    · obtain rfl := List.mem_singleton.1 hn
      exact henters

/-- Every run stays within the budget. -/
theorem budgeted_invariant (a : Arrival) : (noticeMachine arrives).Invariant (Budgeted a) where
  start b hstart := by
    obtain ⟨-, hwaiting, hentered, hhistory⟩ := hstart
    have hspent : spent a b = 0 := by
      unfold spent dispatches
      rw [hwaiting, hhistory]
      rfl
    refine ⟨by rw [hentered]; exact Nat.zero_le _, by rw [hspent]; exact Nat.zero_le _, fun n hn => ?_,
      fun n hn => ?_⟩
    · obtain ⟨x, hx, -⟩ := hn
      rw [hhistory] at hx
      cases hx
    · rw [hwaiting] at hn
      cases hn
  step b b' hb h hstep := by
    cases hstep with
    | enter henters => exact budgeted_enter h henters
    | @lose before after m hwaiting =>
      have hspent : spent a { b with waiting := before ++ after } ≤ spent a b := by
        simp only [spent, hwaiting, List.map_append, List.map_cons, List.sum_append, List.sum_cons]
        omega
      refine ⟨h.entries, hspent.trans h.within, fun n hn ha hpending => ?_, fun n hn => h.failures n ?_⟩
      · exact (Nat.add_le_add_right hspent _).trans (h.pending n hn ha hpending)
      · rw [hwaiting]
        rcases List.mem_append.1 hn with hn | hn
        · exact List.mem_append_left _ hn
        · exact List.mem_append_right _ (List.mem_cons_of_mem _ hn)
    | handle hwaiting => exact budgeted_handle hb h hwaiting
    | later => exact ⟨h.entries, h.within, h.pending, h.failures⟩
    | others hothers =>
      obtain rfl : _ = b.context := hothers
      exact h

/-! ## The notices -/

/-- Events of one cycle, and one between them that has no cycle. -/
def sampleArrival (id : ℕ) (at' : ℚ) (cycle : Option String) : Arrival :=
  ⟨id, .production, .primary, .approach, at', cycle, ⟨600000, 60⟩⟩

def sampleFirst : Arrival := sampleArrival 1 10 (some "resident_primary:1")
def sampleOther : Arrival := sampleArrival 2 20 none
def sampleAgain : Arrival := sampleArrival 3 30 (some "resident_primary:1")

def sampleArrives (a : Arrival) : Prop := a = sampleFirst ∨ a = sampleOther ∨ a = sampleAgain

theorem sampleArrives_ordered : CyclesOrdered sampleArrives := by
  have hcycle : ∀ a k, sampleArrives a → a.cycle = some k → k = "resident_primary:1" := by
    intro a k ha hk
    rcases ha with rfl | rfl | rfl <;> cases hk <;> rfl
  intro mode source k k' hne
  refine Or.inl fun a a' ha ha' => absurd ?_ hne
  exact (hcycle a k ha.1 ha.2.2.2).trans (hcycle a' k' ha'.1 ha'.2.2.2).symm

/-- The recipient when the notice is dispatched. -/
def sampleDispatched (r : Recipient) (a : Arrival) (sequence : ℕ) : Recipient :=
  { r.reserve a ⟨100, sequence⟩ 100 with pendingDispatched := true }

def sampleNotice (r : Recipient) (a : Arrival) (sequence : ℕ) : Notice :=
  ⟨a, 0, some ⟨100, sequence⟩, some (sampleDispatched r a sequence)⟩

def sampleNoticeFirst : Notice := sampleNotice .empty sampleFirst 1
def sampleNoticeOther : Notice :=
  sampleNotice ((sampleDispatched .empty sampleFirst 1).accept sampleFirst 100) sampleOther 2

def sampleStart : Board Context Message := ⟨⟨fun _ => none, fun _ => none⟩, 100, [], [], []⟩

def sampleEnter (b : Board Context Message) (a : Arrival) : Board Context Message :=
  b.act nodes (.enter (.stateMigrate ⟨a, 0, none, none⟩))

/-- The first event is dispatched, and then accepted. -/
def sampleFirstDispatched : Board Context Message :=
  [.handle 0, .handle 0, .handle 0].foldl (Board.act nodes) (sampleEnter sampleStart sampleFirst)
def sampleFirstAccepted : Board Context Message :=
  (sampleFirstDispatched.act nodes (.enter (.deliveryAck sampleNoticeFirst))).act nodes (.handle 1)

/-- Then the one without a cycle. -/
def sampleOtherDispatched : Board Context Message :=
  [.handle 1, .handle 1, .handle 1].foldl (Board.act nodes) (sampleEnter sampleFirstAccepted sampleOther)
def sampleOtherAccepted : Board Context Message :=
  (sampleOtherDispatched.act nodes (.enter (.deliveryAck sampleNoticeOther))).act nodes (.handle 2)

/-- And then the cycle again. -/
def sampleRun : Board Context Message :=
  [.handle 2, .handle 2, .handle 2].foldl (Board.act nodes) (sampleEnter sampleOtherAccepted sampleAgain)

theorem reachable_sampleEnter {b : Board Context Message} (hb : (noticeMachine sampleArrives).Reachable b)
    {a : Arrival} (ha : sampleArrives a)
    (hfresh : ∀ n', .stateMigrate n' ∈ b.entered → n'.arrival.id ≠ a.id) :
    (noticeMachine sampleArrives).Reachable (sampleEnter b a) := by
  refine reachable_act hb fun m hm => ?_
  cases hm
  exact ⟨ha, rfl, rfl, hfresh⟩

theorem reachable_handles {b : Board Context Message} (hb : (noticeMachine sampleArrives).Reachable b)
    (i : ℕ) : (noticeMachine sampleArrives).Reachable
      ([.handle i, .handle i, .handle i].foldl (Board.act nodes) b) :=
  reachable_acts hb fun b m hm => by simp at hm

theorem sampleRun_steps : sampleFirstDispatched.history.length = 3 ∧
    sampleFirstAccepted.entered =
      [.stateMigrate ⟨sampleFirst, 0, none, none⟩, .deliveryAck sampleNoticeFirst] ∧
    sampleOtherDispatched.history.length = 7 ∧
    sampleOtherAccepted.entered =
      [.stateMigrate ⟨sampleFirst, 0, none, none⟩, .deliveryAck sampleNoticeFirst,
        .stateMigrate ⟨sampleOther, 0, none, none⟩, .deliveryAck sampleNoticeOther] ∧
    sampleRun.history.length = 11 := by
  decide +kernel

theorem sampleFirstDispatched_reachable : (noticeMachine sampleArrives).Reachable sampleFirstDispatched := by
  have hstart : (noticeMachine sampleArrives).Reachable sampleStart := .start ⟨rfl, rfl, rfl, rfl⟩
  refine reachable_handles (reachable_sampleEnter hstart (Or.inl rfl) fun n' hn' => ?_) 0
  cases hn'

theorem sampleFirstAccepted_reachable : (noticeMachine sampleArrives).Reachable sampleFirstAccepted := by
  refine reachable_act (reachable_act sampleFirstDispatched_reachable fun m hm => ?_) fun m hm => by cases hm
  cases hm
  refine ⟨rfl, _, List.get_mem _ (Fin.cast sampleRun_steps.1.symm (2 : Fin 3)), ?_⟩
  decide +kernel

theorem sampleOtherDispatched_reachable : (noticeMachine sampleArrives).Reachable sampleOtherDispatched := by
  refine reachable_handles
    (reachable_sampleEnter sampleFirstAccepted_reachable (Or.inr (Or.inl rfl)) fun n' hn' => ?_) 1
  rw [sampleRun_steps.2.1] at hn'
  simp only [List.mem_cons, Message.stateMigrate.injEq, reduceCtorEq, List.not_mem_nil, or_false] at hn'
  rw [hn']
  decide

theorem sampleOtherAccepted_reachable : (noticeMachine sampleArrives).Reachable sampleOtherAccepted := by
  refine reachable_act (reachable_act sampleOtherDispatched_reachable fun m hm => ?_) fun m hm => by cases hm
  cases hm
  refine ⟨rfl, _, List.get_mem _ (Fin.cast sampleRun_steps.2.2.1.symm (6 : Fin 7)), ?_⟩
  decide +kernel

theorem sampleRun_reachable : (noticeMachine sampleArrives).Reachable sampleRun := by
  refine reachable_handles
    (reachable_sampleEnter sampleOtherAccepted_reachable (Or.inr (Or.inr rfl)) fun n' hn' => ?_) 2
  rw [sampleRun_steps.2.2.2.1] at hn'
  simp only [List.mem_cons, Message.stateMigrate.injEq, reduceCtorEq, List.not_mem_nil, or_false,
    false_or] at hn'
  rcases hn' with rfl | rfl <;> decide

theorem sampleRun_length : sampleRun.history.length = 11 := sampleRun_steps.2.2.2.2

def sampleEvent (i : Fin 11) : Handled Context Message :=
  sampleRun.history.get (i.cast sampleRun_length.symm)

/-- The notice that passes last. -/
def sampleNoticeAgain : Notice :=
  { sampleNotice ((sampleDispatched ((sampleDispatched .empty sampleFirst 1).accept sampleFirst 100)
      sampleOther 2).accept sampleOther 100) sampleAgain 3 with
    recipient := some ((((sampleDispatched ((sampleDispatched .empty sampleFirst 1).accept sampleFirst 100)
      sampleOther 2).accept sampleOther 100)).reserve sampleAgain ⟨100, 3⟩ 100) }

end SmartHome.ResidentNotifications
