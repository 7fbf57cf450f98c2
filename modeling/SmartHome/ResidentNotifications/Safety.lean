/-
  Reservations are exclusive, and an accepted cycle is not notified again.
-/
import Mathlib.Tactic.Linarith
import SmartHome.ResidentNotifications.Events

namespace SmartHome.ResidentNotifications

open Verif

variable {arrives : Arrival → Prop} {c c' : Context} {ch : Channel} {now : ℚ} {m : Message}
  {n : Notice} {out : List Message} {token : Token} {r r' : Recipient}
  {history : List (Handled Context Message)}

/-! ## One step -/

theorem reserves_of_change (hchange : Change now c m (c', out)) (hout : (nodes now m c).2 = out)
    (hr : Reserves ch token ⟨m, now, c⟩) :
    ∃ n, m = .stateRead n ∧ n.channel = ch ∧ token = ⟨now, c.sequence ch.1 + 1⟩ := by
  obtain ⟨n', hsent, hch, htoken⟩ := hr
  replace hsent : .stateWrite n' ∈ out := hout ▸ hsent
  cases hchange with
  | quiet => cases hsent
  | found => cases List.mem_singleton.1 hsent
  | migrate => cases List.mem_singleton.1 hsent
  | @reserve n _ _ _ _ _ ht _ =>
    obtain rfl := Message.stateWrite.inj (List.mem_singleton.1 hsent)
    subst hch
    exact ⟨n, rfl, rfl, (Option.some.inj htoken).symm.trans ht⟩
  | pass => cases List.mem_singleton.1 hsent
  | accept => cases hsent
  | release =>
    split_ifs at hsent
    · cases List.mem_singleton.1 hsent
    · cases hsent

theorem sequence_mono (hchange : Change now c m (c', out)) (mode : Mode) :
    c.sequence mode ≤ c'.sequence mode := by
  cases hchange with
  | quiet => exact le_rfl
  | found => exact le_rfl
  | @migrate n d hnone _ =>
    rw [sequence_set]
    split_ifs with hmode
    · rw [Context.sequence, hmode, hnone]
      exact Nat.zero_le _
    · exact le_rfl
  | reserve =>
    rw [sequence_reserve]
    split_ifs <;> omega
  | pass => exact (sequence_amend _ _).ge
  | accept => exact (sequence_amend _ _).ge
  | release => exact (sequence_amend _ _).ge

/-- A token that is pending was pending before, or is that of a new reservation. -/
theorem token_of_change (hchange : Change now c m (c', out)) (hout : (nodes now m c).2 = out)
    (hr' : c'.at ch = some r') (htoken : r'.pendingToken = some token) :
    (∃ r, c.at ch = some r ∧ r.pendingToken = some token ∧ ∀ t, ¬ Reserves ch t ⟨m, now, c⟩) ∨
      Reserves ch token ⟨m, now, c⟩ ∧ c'.sequence ch.1 = token.sequence := by
  have hquiet : (∀ n, m ≠ .stateRead n) → ∀ t, ¬ Reserves ch t ⟨m, now, c⟩ := by
    intro hm t hreserves
    obtain ⟨n, rfl, -⟩ := reserves_of_change hchange hout hreserves
    exact hm n rfl
  -- the changes that amend a recipient keep its token
  have hamend : ∀ {r : Recipient} {ch' : Channel} {r'' : Recipient}, c.at ch' = some r →
      r''.pendingToken = r.pendingToken → (c.amend ch' r'').at ch = some r' →
      ∃ r, c.at ch = some r ∧ r.pendingToken = some token := by
    intro r ch' r'' hr hkeep hat
    rw [at_amend] at hat
    split_ifs at hat with heq
    · obtain rfl := Option.some.inj hat
      exact ⟨r, heq ▸ hr, hkeep ▸ htoken⟩
    · exact ⟨r', hat, htoken⟩
  cases hchange with
  | quiet =>
    refine Or.inl ⟨r', hr', htoken, fun t hreserves => ?_⟩
    obtain ⟨n, hmem, -⟩ := hreserves
    replace hmem : .stateWrite n ∈ (nodes now m c).2 := hmem
    rw [hout] at hmem
    cases hmem
  | found => exact Or.inl ⟨r', hr', htoken, hquiet fun n h => by cases h⟩
  | migrate hnone hempty =>
    rw [at_set] at hr'
    split_ifs at hr' with hmode
    · rw [(hempty _ _ hr').1] at htoken
      cases htoken
    · exact Or.inl ⟨r', hr', htoken, hquiet fun n h => by cases h⟩
  | @reserve n r r₂ token' hr hdup ht hr₂ =>
    rw [at_reserve] at hr'
    split_ifs at hr' with heq
    · have hsent : .stateWrite (n.reserved token' r₂) ∈ (nodes now (.stateRead n) c).2 :=
        hout.symm ▸ List.mem_singleton_self _
      obtain rfl := Option.some.inj hr'
      obtain rfl : token' = token := by
        rw [hr₂] at htoken
        exact Option.some.inj htoken
      refine Or.inr ⟨⟨_, hsent, heq.symm, rfl⟩, ?_⟩
      · rw [sequence_reserve, if_pos (congrArg Prod.fst heq), ht, heq]
        rfl
    · refine Or.inl ⟨r', hr', htoken, fun t hreserves => heq ?_⟩
      obtain ⟨n', hn', hch, -⟩ := reserves_of_change (.reserve hr hdup ht hr₂) hout hreserves
      obtain rfl := Message.stateRead.inj hn'
      exact hch.symm
  | pass hr =>
    obtain ⟨r, hr, hkeep⟩ := hamend hr (by rfl) hr'
    exact Or.inl ⟨r, hr, hkeep, hquiet fun n h => by cases h⟩
  | accept hm hr =>
    obtain ⟨r, hr, hkeep⟩ := hamend hr (by rfl) hr'
    exact Or.inl ⟨r, hr, hkeep, hquiet fun n h => by rcases hm with rfl | rfl <;> cases h⟩
  | release hr =>
    obtain ⟨r, hr, hkeep⟩ := hamend hr (by rfl) hr'
    exact Or.inl ⟨r, hr, hkeep, hquiet fun n h => by cases h⟩

/-- A recipient keeps its reservation, or gets a new one. -/
theorem recipient_of_change (hchange : Change now c m (c', out)) (hr : c.at ch = some r) :
    ∃ r', c'.at ch = some r' ∧
      ((r'.pendingToken = r.pendingToken ∧ r'.pendingEventAt = r.pendingEventAt ∧
          (r.pendingDispatched = true → r'.pendingDispatched = true)) ∨
        ∃ t, r'.pendingToken = some t ∧ c.sequence ch.1 < t.sequence) := by
  have hamend : ∀ {r₀ : Recipient} {ch' : Channel} {r'' : Recipient}, c.at ch' = some r₀ →
      r''.pendingToken = r₀.pendingToken → r''.pendingEventAt = r₀.pendingEventAt →
      (r₀.pendingDispatched = true → r''.pendingDispatched = true) →
      ∃ r', (c.amend ch' r'').at ch = some r' ∧
        ((r'.pendingToken = r.pendingToken ∧ r'.pendingEventAt = r.pendingEventAt ∧
            (r.pendingDispatched = true → r'.pendingDispatched = true)) ∨
          ∃ t, r'.pendingToken = some t ∧ c.sequence ch.1 < t.sequence) := by
    intro r₀ ch' r'' hr₀ htoken hevent hdispatched
    rw [at_amend]
    split_ifs with heq
    · obtain rfl : r₀ = r := Option.some.inj ((heq ▸ hr₀.symm).trans hr)
      exact ⟨r'', rfl, Or.inl ⟨htoken, hevent, hdispatched⟩⟩
    · exact ⟨r, hr, Or.inl ⟨rfl, rfl, id⟩⟩
  cases hchange with
  | quiet => exact ⟨r, hr, Or.inl ⟨rfl, rfl, id⟩⟩
  | found => exact ⟨r, hr, Or.inl ⟨rfl, rfl, id⟩⟩
  | migrate hnone _ =>
    rw [at_set]
    split_ifs with hmode
    · rw [at_of_delivery_none (hmode ▸ hnone)] at hr
      cases hr
    · exact ⟨r, hr, Or.inl ⟨rfl, rfl, id⟩⟩
  | reserve _ _ htoken hr' =>
    rw [at_reserve]
    split_ifs with heq
    · refine ⟨_, rfl, Or.inr ⟨_, by rw [hr']; rfl, ?_⟩⟩
      rw [htoken, heq]
      exact Nat.lt_succ_self _
    · exact ⟨r, hr, Or.inl ⟨rfl, rfl, id⟩⟩
  | pass hr₀ => exact hamend hr₀ rfl rfl fun _ => rfl
  | accept _ hr₀ => exact hamend hr₀ rfl rfl id
  | release hr₀ => exact hamend hr₀ rfl rfl id

theorem Notice.Held.change (h : n.Held c) (hchange : Change now c m (c', out)) : n.Held c' := by
  obtain ⟨token, hres, hle, r, hr, hevent⟩ := h
  refine ⟨token, hres, hle.trans (sequence_mono hchange _), ?_⟩
  obtain ⟨r', hr', ⟨htoken, hat, -⟩ | ⟨t, ht, hlt⟩⟩ := recipient_of_change hchange hr
  · exact ⟨r', hr', fun h => hat ▸ hevent (htoken ▸ h)⟩
  · refine ⟨r', hr', fun h => ?_⟩
    obtain rfl := Option.some.inj (ht.symm.trans h)
    exact absurd hlt (not_lt.2 hle)

/-- If the reservation of the notice is pending, then as dispatched. -/
def Notice.Spent (n : Notice) (c : Context) : Prop :=
  ∀ r, c.at n.channel = some r → r.pendingToken = n.reservation → r.pendingDispatched = true

theorem Notice.Spent.change (h : n.Spent c) (hheld : n.Held c) (hchange : Change now c m (c', out)) :
    n.Spent c' := by
  obtain ⟨token, hres, hle, r, hr, -⟩ := hheld
  intro r' hr' htoken
  obtain ⟨r₂, hr₂, ⟨hkeep, -, hdispatched⟩ | ⟨t, ht, hlt⟩⟩ := recipient_of_change hchange hr
  · obtain rfl := Option.some.inj (hr₂.symm.trans hr')
    exact hdispatched (h r hr (hkeep ▸ htoken))
  · obtain rfl := Option.some.inj (hr₂.symm.trans hr')
    obtain rfl := Option.some.inj ((htoken.trans hres).symm.trans ht)
    exact absurd hlt (not_lt.2 hle)

/-! ## Who acts -/

theorem passes_spec (h : Passes n ⟨m, now, c⟩) : ∃ r, c.at n.channel = some r ∧
    r.pendingToken = n.reservation ∧ r.pendingKey = some n.arrival.key ∧ r.pendingDispatched ≠ true ∧
      ∃ r', .dispatch { n with recipient := some r' } ∈ Handled.sent nodes ⟨m, now, c⟩ := by
  obtain ⟨rfl, hsent⟩ := h
  replace hsent : (stateWrite n c).2 ≠ [] := hsent
  have hchange : Change now c (.stateWrite n) (stateWrite n c) := change_stateWrite n
  show ∃ r, _ ∧ _ ∧ _ ∧ _ ∧ ∃ r', _ ∈ (stateWrite n c).2
  generalize stateWrite n c = out at hsent hchange
  cases hchange with
  | quiet => exact absurd rfl hsent
  | pass hr htoken hkey hdispatched hn' =>
    subst hn'
    exact ⟨_, hr, htoken, hkey, hdispatched, _, List.mem_singleton_self _⟩
  | accept hm => rcases hm with hm | hm <;> cases hm

/-- Whoever passes, is accepted or released holds the reservation that is pending. -/
theorem holds_of_acts (hfits : Fits arrives m c)
    (h : Passes n ⟨m, now, c⟩ ∨ Accepts n ⟨m, now, c⟩ ∨ Releases n ⟨m, now, c⟩) :
    n.Genuine arrives ∧ n.Held c ∧ ∃ r, c.at n.channel = some r ∧ r.pendingToken = n.reservation := by
  rcases h with hpasses | ⟨hm, htoken⟩ | ⟨hm, howns⟩
  · obtain ⟨r, hr, htoken, -⟩ := passes_spec hpasses
    obtain rfl := hpasses.1
    exact ⟨hfits.1, hfits.2, r, hr, htoken⟩
  · have hgenuine : n.Genuine arrives ∧ n.Held c := by rcases hm with hm | hm <;> cases hm <;> exact hfits
    obtain ⟨r, hr, hcalled⟩ := hgenuine.2.called
    rw [show n.called _ = some r from hcalled] at htoken
    exact ⟨hgenuine.1, hgenuine.2, r, hr, htoken⟩
  · cases hm
    obtain ⟨r, hr, hcalled⟩ := Notice.Held.called hfits.2
    obtain ⟨r', hr', -, htoken⟩ := howns
    obtain rfl : r' = r := Option.some.inj ((show n.called c = some r' from hr').symm.trans hcalled)
    exact ⟨hfits.1, hfits.2, r', hr, htoken⟩

/-! ## The invariant -/

/-- What holds when a notice passes, is accepted or fails, after what came before. -/
structure Exclusive (before : List (Handled Context Message)) (h : Handled Context Message) : Prop where
  /-- No other notice passed with the reservation. -/
  once : ∀ n, Passes n h → ∀ x ∈ before, ∀ n', Passes n' x → n'.channel = n.channel →
    n'.reservation ≠ n.reservation
  /-- The notice holds the newest reservation. -/
  newest : ∀ n, Passes n h ∨ Accepts n h ∨ Releases n h →
    ∃ token, n.reservation = some token ∧ Newest before n.channel token

/-- The notice was dispatched. -/
structure Notice.Past (arrives : Arrival → Prop) (n : Notice) (c : Context) : Prop where
  genuine : n.Genuine arrives
  held : n.Held c
  spent : n.Spent c

/-- What holds of the state after a history. -/
structure Sound (arrives : Arrival → Prop) (c : Context) (history : List (Handled Context Message)) :
    Prop where
  tokens : ∀ ch r token, c.at ch = some r → r.pendingToken = some token →
    Newest history ch token ∧ token.sequence ≤ c.sequence ch.1
  dispatched : ∀ h ∈ history, ∀ n, .dispatch n ∈ h.sent nodes → n.Past arrives c
  accepted : ∀ ch r t, c.at ch = some r → r.acceptedEventAt = some t →
    ∃ u, r.pendingEventAt = some u ∧ t ≤ u
  exclusive : AtEach Exclusive history

theorem exclusive_of_fits (h : Sound arrives c history) (hfits : Fits arrives m c) :
    Exclusive history ⟨m, now, c⟩ where
  once n hpasses x hx n' hpasses' hch hres := by
    obtain ⟨message, t, c₀⟩ := x
    obtain ⟨-, -, -, -, -, r', hsent⟩ := passes_spec hpasses'
    obtain ⟨r, hr, htoken, -, hdispatched, -⟩ := passes_spec hpasses
    exact hdispatched ((h.dispatched _ hx _ hsent).spent r (hch ▸ hr) (hres ▸ htoken))
  newest n hacts := by
    obtain ⟨-, ⟨token, hres, -⟩, r, hr, htoken⟩ := holds_of_acts hfits hacts
    exact ⟨token, hres, (h.tokens _ _ _ hr (htoken.trans hres)).1⟩

theorem tokens_step (h : Sound arrives c history) (hchange : Change now c m (c', out))
    (hout : (nodes now m c).2 = out) (hr' : c'.at ch = some r') (htoken : r'.pendingToken = some token) :
    Newest (history ++ [⟨m, now, c⟩]) ch token ∧ token.sequence ≤ c'.sequence ch.1 := by
  rcases token_of_change hchange hout hr' htoken with ⟨r, hr, hkeep, hno⟩ | ⟨hreserves, hseq⟩
  · obtain ⟨hnewest, hle⟩ := h.tokens _ _ _ hr hkeep
    exact ⟨hnewest.concat hno, hle.trans (sequence_mono hchange _)⟩
  · exact ⟨newest_last hreserves, hseq.ge⟩

theorem dispatched_step (hfits : Fits arrives m c)
    (hchange : Change now c m (c', out)) (hsent : .dispatch n ∈ out) : n.Past arrives c' := by
  cases hchange with
  | quiet => cases hsent
  | found => cases List.mem_singleton.1 hsent
  | migrate => cases List.mem_singleton.1 hsent
  | reserve => cases List.mem_singleton.1 hsent
  | @pass n₀ _ r hr htoken hkey hdispatched hn' =>
    obtain rfl := Message.dispatch.inj (List.mem_singleton.1 hsent)
    have hpass : Change now c (.stateWrite n₀) (c.amend n₀.channel { r with pendingDispatched := true }, _) :=
      .pass hr htoken hkey hdispatched hn'
    have hheld : n₀.Held (c.amend n₀.channel { r with pendingDispatched := true }) :=
      Notice.Held.change hfits.2 hpass
    subst hn'
    refine ⟨hfits.1, hheld, fun r' hr' _ => ?_⟩
    rw [at_amend] at hr'
    split_ifs at hr' with heq
    · rw [← Option.some.inj hr']
    · exact absurd rfl heq
  | accept => cases hsent
  | release =>
    split_ifs at hsent
    · cases List.mem_singleton.1 hsent
    · cases hsent

theorem accepted_step (h : Sound arrives c history) (hfits : Fits arrives m c)
    (hchange : Change now c m (c', out)) {t : ℚ} (hr' : c'.at ch = some r')
    (ht : r'.acceptedEventAt = some t) : ∃ u, r'.pendingEventAt = some u ∧ t ≤ u := by
  cases hchange with
  | quiet => exact h.accepted _ _ _ hr' ht
  | found => exact h.accepted _ _ _ hr' ht
  | migrate _ hempty =>
    rw [at_set] at hr'
    split_ifs at hr' with hmode
    · rw [(hempty _ _ hr').2] at ht
      cases ht
    · exact h.accepted _ _ _ hr' ht
  | @reserve n r r₂ token hr hdup _ hr₂ =>
    rw [at_reserve] at hr'
    split_ifs at hr' with heq
    · obtain rfl := Option.some.inj hr'
      subst hr₂
      refine ⟨n.arrival.eventAt, rfl, ?_⟩
      by_contra hlt
      exact hdup (Or.inl ⟨t, ht, not_le.1 hlt⟩)
    · exact h.accepted _ _ _ hr' ht
  | @pass _ _ r hr =>
    rw [at_amend] at hr'
    split_ifs at hr'
    · obtain rfl := Option.some.inj hr'
      exact h.accepted _ r _ hr ht
    · exact h.accepted _ _ _ hr' ht
  | @accept m n r hm hr htoken =>
    rw [at_amend] at hr'
    split_ifs at hr'
    · obtain rfl := Option.some.inj hr'
      have hheld : n.Held c := by rcases hm with rfl | rfl <;> exact hfits.2
      obtain ⟨token, hres, -, r₂, hr₂, hevent⟩ := hheld
      obtain rfl := Option.some.inj (hr.symm.trans hr₂)
      exact ⟨t, (hevent (htoken.trans hres)).trans ht, le_rfl⟩
    · exact h.accepted _ _ _ hr' ht
  | @release _ r hr =>
    rw [at_amend] at hr'
    split_ifs at hr'
    · obtain rfl := Option.some.inj hr'
      exact h.accepted _ r _ hr ht
    · exact h.accepted _ _ _ hr' ht

theorem sound_step (h : Sound arrives c history) (hfits : Fits arrives m c) :
    Sound arrives (nodes now m c).1 (history ++ [⟨m, now, c⟩]) := by
  have hchange : Change now c m (nodes now m c) := change_of_fits hfits
  obtain ⟨c', out, hout⟩ : ∃ c' out, nodes now m c = (c', out) := ⟨_, _, rfl⟩
  rw [hout] at hchange ⊢
  have hsent : (nodes now m c).2 = out := congrArg Prod.snd hout
  refine ⟨fun ch r token => tokens_step h hchange hsent, fun x hx n hn => ?_,
    fun ch r t => accepted_step h hfits hchange, h.exclusive.concat (exclusive_of_fits h hfits)⟩
  rcases List.mem_append.1 hx with hx | hx
  · obtain ⟨hgenuine, hheld, hspent⟩ := h.dispatched x hx n hn
    exact ⟨hgenuine, hheld.change hchange, hspent.change hheld hchange⟩
  · obtain rfl := List.mem_singleton.1 hx
    exact dispatched_step hfits hchange (hsent ▸ hn)

theorem fits_change (hfits : Fits arrives m c) {m' : Message} {now' : ℚ}
    (hchange : Change now' c m' (c', out)) : Fits arrives m c' := by
  cases m with
  | stateMigrate n => exact hfits
  | stateRead n => exact hfits
  | stateWrite n => exact ⟨hfits.1, Notice.Held.change hfits.2 hchange⟩
  | deliveryAck n => exact ⟨hfits.1, Notice.Held.change hfits.2 hchange⟩
  | dryRun n => exact ⟨hfits.1, Notice.Held.change hfits.2 hchange⟩
  | deliveryFailure n => exact ⟨hfits.1, Notice.Held.change hfits.2 hchange⟩
  | dispatch n => trivial

theorem fits_sent (hfits : Fits arrives m c) (hchange : Change now c m (c', out)) :
    ∀ o ∈ out, Fits arrives o c' := by
  intro o ho
  cases hchange with
  | quiet => cases ho
  | found => obtain rfl := List.mem_singleton.1 ho; exact hfits
  | migrate => obtain rfl := List.mem_singleton.1 ho; exact hfits
  | @reserve n r r₂ token hr hdup htoken hr₂ =>
    obtain rfl := List.mem_singleton.1 ho
    refine ⟨hfits, token, rfl, ?_, r₂, ?_, fun _ => by rw [hr₂]; rfl⟩
    · rw [sequence_reserve, htoken]
      exact (if_pos rfl).ge
    · rw [at_reserve]
      exact if_pos rfl
  | pass => obtain rfl := List.mem_singleton.1 ho; trivial
  | accept => cases ho
  | @release n r =>
    split_ifs at ho with hretry
    · obtain rfl := List.mem_singleton.1 ho
      exact ⟨hfits.1.1, hretry⟩
    · cases ho

/-- What holds along every run. -/
theorem sound_flow : FlowInvariant nodes (outside arrives) (fun c _ history => Sound arrives c history)
    (fun m c _ => Fits arrives m c) where
  start c t hstart := by
    have hnone : ∀ ch, c.at ch = none := fun ch => at_of_delivery_none (congrFun hstart ch.1)
    refine ⟨fun ch r _ hr => ?_, fun h hh => (List.not_mem_nil hh).elim, fun ch r _ hr => ?_,
      atEach_nil⟩ <;>
      · rw [hnone] at hr
        cases hr
  enter b m hsound henters := by
    have hpast : ∀ n, Dispatched b n → n.Genuine arrives ∧ n.Held b.context := by
      intro n hn
      obtain ⟨h, hh, hn⟩ := hn
      exact ⟨(hsound.dispatched h hh n hn).genuine, (hsound.dispatched h hh n hn).held⟩
    cases m with
    | stateMigrate n => exact ⟨henters.1, henters.2.1.le.trans (Nat.zero_le _)⟩
    | deliveryAck n => exact hpast n henters.2
    | dryRun n => exact hpast n henters.2
    | deliveryFailure n => exact hpast n henters
    | stateRead n => exact henters.elim
    | stateWrite n => exact henters.elim
    | dispatch n => exact henters.elim
  handle _ _ _ _ hsound hfits := sound_step hsound hfits
  sent _ _ _ _ _ hfits := fits_sent hfits (change_of_fits hfits)
  kept _ _ _ _ _ _ hfits hfits' := fits_change hfits' (change_of_fits hfits)
  later _ _ _ _ hsound _ := ⟨hsound, fun _ hm => hm⟩
  others c c' _ _ hsound hothers := by
    obtain rfl : c' = c := hothers
    exact ⟨hsound, fun _ hm => hm⟩

end SmartHome.ResidentNotifications
