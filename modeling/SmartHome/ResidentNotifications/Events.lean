/-
  What happens to a channel, the state of one source and its recipient: reservations, dispatches,
  acceptances and releases, and what a handled message does.
-/
import SmartHome.ResidentNotifications.Nodes

namespace SmartHome.ResidentNotifications

open Verif

/-- One source in one mode. -/
abbrev Channel := Mode × Resident

def Notice.channel (n : Notice) : Channel := (n.arrival.mode, n.arrival.source)

/-- What the state keeps for a channel. -/
def Context.at (c : Context) (ch : Channel) : Option Recipient := c.recipient ch.1 ch.2

/-- `state.sequence` -/
def Context.sequence (c : Context) (mode : Mode) : ℕ := ((c.delivery mode).getD .empty).sequence

/-! ## Events -/

/-- A notice gets a reservation. -/
def Reserves (ch : Channel) (token : Token) (h : Handled Context Message) : Prop :=
  ∃ n, .stateWrite n ∈ h.sent nodes ∧ n.channel = ch ∧ n.reservation = some token

/-- A notice passes `state-write`. -/
def Passes (n : Notice) (h : Handled Context Message) : Prop :=
  h.message = .stateWrite n ∧ h.sent nodes ≠ []

/-- The acceptance of a notice is recorded. -/
def Accepts (n : Notice) (h : Handled Context Message) : Prop :=
  (h.message = .deliveryAck n ∨ h.message = .dryRun n) ∧
    (n.called h.context).bind Recipient.pendingToken = n.reservation

/-- A failure of a notice clears its reservation. -/
def Releases (n : Notice) (h : Handled Context Message) : Prop :=
  h.message = .deliveryFailure n ∧ n.owns h.context

/-- The token is that of the newest reservation of the channel. -/
def Newest (history : List (Handled Context Message)) (ch : Channel) (token : Token) : Prop :=
  ∃ before h after, history = before ++ h :: after ∧ Reserves ch token h ∧
    ∀ x ∈ after, ∀ token', ¬ Reserves ch token' x

theorem Newest.concat {history : List (Handled Context Message)} {ch : Channel} {token : Token}
    {x : Handled Context Message} (h : Newest history ch token)
    (hx : ∀ token', ¬ Reserves ch token' x) : Newest (history ++ [x]) ch token := by
  obtain ⟨before, y, after, rfl, hreserves, hafter⟩ := h
  refine ⟨before, y, after ++ [x], by rw [List.append_assoc, List.cons_append], hreserves, fun z hz => ?_⟩
  rcases List.mem_append.1 hz with hz | hz
  · exact hafter z hz
  · rw [List.mem_singleton.1 hz]
    exact hx

theorem newest_last {history : List (Handled Context Message)} {ch : Channel} {token : Token}
    {x : Handled Context Message} (h : Reserves ch token x) : Newest (history ++ [x]) ch token :=
  ⟨history, x, [], rfl, h, fun y hy => by cases hy⟩

/-! ## What a message does -/

variable {c : Context} {ch : Channel} {now : ℚ} {m : Message} {n : Notice}

theorem at_set_put (mode : Mode) (source : Resident) (d : Delivery) (r : Recipient) :
    (c.set mode (d.put source r)).at ch =
      if ch.1 = mode then if ch.2 = source then some r else d.deliveries ch.2 else c.at ch := by
  unfold Context.at Context.recipient Context.set Delivery.put
  split_ifs <;> simp_all

theorem sequence_set (mode mode' : Mode) (d : Delivery) :
    (c.set mode d).sequence mode' = if mode' = mode then d.sequence else c.sequence mode' := by
  unfold Context.sequence Context.set
  split_ifs <;> simp_all

/-- The recipient of the channel is replaced. -/
def Context.amend (c : Context) (ch : Channel) (r : Recipient) : Context :=
  c.set ch.1 (((c.delivery ch.1).getD .empty).put ch.2 r)

/-- A reservation is made on the channel. -/
def Context.reserve (c : Context) (ch : Channel) (r : Recipient) : Context :=
  c.set ch.1 ({ (c.delivery ch.1).getD .empty with sequence := c.sequence ch.1 + 1 }.put ch.2 r)

/-- The notice with its reservation. -/
def Notice.reserved (n : Notice) (token : Token) (r : Recipient) : Notice :=
  { n with reservation := some token, recipient := some r }

/-- The notice on its way again after a failure. -/
def Notice.retry (n : Notice) : Notice := { n with retryCount := n.retryCount + 1 }

/-- What handling a message does to the state, and what it sends: it does nothing, makes the state
    from an older one, makes a reservation, or changes the recipient whose newest reservation the
    notice holds. -/
inductive Change (now : ℚ) (c : Context) : Message → Context × List Message → Prop
  | quiet {m : Message} : (∀ n, ¬ Accepts n ⟨m, now, c⟩) → (∀ n, ¬ Releases n ⟨m, now, c⟩) →
      Change now c m (c, [])
  | found {n : Notice} : Change now c (.stateMigrate n) (c, [.stateRead n])
  | migrate {n : Notice} {d : Delivery} : c.delivery n.arrival.mode = none →
      (∀ s r, d.deliveries s = some r → r.pendingToken = none ∧ r.acceptedEventAt = none) →
      Change now c (.stateMigrate n) (c.set n.arrival.mode d, [.stateRead n])
  | reserve {n : Notice} {r r' : Recipient} {token : Token} : r = (c.at n.channel).getD .empty →
      ¬ r.duplicate n.arrival now → token = ⟨now, c.sequence n.arrival.mode + 1⟩ →
      r' = r.reserve n.arrival token now →
      Change now c (.stateRead n) (c.reserve n.channel r', [.stateWrite (n.reserved token r')])
  | pass {n n' : Notice} {r : Recipient} : c.at n.channel = some r → r.pendingToken = n.reservation →
      r.pendingKey = some n.arrival.key → r.pendingDispatched ≠ true →
      n' = { n with recipient := some { r with pendingDispatched := true } } →
      Change now c (.stateWrite n)
        (c.amend n.channel { r with pendingDispatched := true }, [.dispatch n'])
  | accept {m : Message} {n : Notice} {r : Recipient} : (m = .deliveryAck n ∨ m = .dryRun n) →
      c.at n.channel = some r → r.pendingToken = n.reservation →
      Change now c m (c.amend n.channel (r.accept n.arrival now), [])
  | release {n : Notice} {r : Recipient} : c.at n.channel = some r → r.pendingToken = n.reservation →
      r.pendingKey = some n.arrival.key →
      Change now c (.deliveryFailure n)
        (c.amend n.channel r.release, if n.retry.retryCount ≤ 2 then [.stateRead n.retry] else [])

/-! ## The state after a change -/

theorem at_amend (r : Recipient) (ch' : Channel) :
    (c.amend ch r).at ch' = if ch' = ch then some r else c.at ch' := by
  obtain ⟨mode, source⟩ := ch
  obtain ⟨mode', source'⟩ := ch'
  unfold Context.amend
  rw [at_set_put]
  unfold Context.at Context.recipient
  by_cases hmode : mode' = mode
  · subst hmode
    cases c.delivery mode' <;> simp [Delivery.empty]
  · simp [hmode]

theorem at_reserve (r : Recipient) (ch' : Channel) :
    (c.reserve ch r).at ch' = if ch' = ch then some r else c.at ch' := by
  obtain ⟨mode, source⟩ := ch
  obtain ⟨mode', source'⟩ := ch'
  unfold Context.reserve
  rw [at_set_put]
  unfold Context.at Context.recipient
  by_cases hmode : mode' = mode
  · subst hmode
    cases c.delivery mode' <;> simp [Delivery.empty]
  · simp [hmode]

theorem sequence_amend (r : Recipient) (mode : Mode) :
    (c.amend ch r).sequence mode = c.sequence mode := by
  unfold Context.amend
  rw [sequence_set]
  split_ifs with hmode
  · rw [hmode]; rfl
  · rfl

theorem sequence_reserve (r : Recipient) (mode : Mode) :
    (c.reserve ch r).sequence mode = if mode = ch.1 then c.sequence mode + 1 else c.sequence mode := by
  unfold Context.reserve
  rw [sequence_set]
  split_ifs with hmode
  · rw [hmode]; rfl
  · rfl

theorem at_of_delivery_none (h : c.delivery ch.1 = none) : c.at ch = none := by
  unfold Context.at Context.recipient
  rw [h]
  rfl

theorem at_set (mode : Mode) (d : Delivery) (ch : Channel) :
    (c.set mode d).at ch = if ch.1 = mode then d.deliveries ch.2 else c.at ch := by
  unfold Context.at Context.recipient Context.set
  split_ifs <;> simp_all

/-- The notice has a reservation, and the state has the recipient that it was made for. -/
def Notice.Held (n : Notice) (c : Context) : Prop :=
  ∃ token, n.reservation = some token ∧ token.sequence ≤ c.sequence n.arrival.mode ∧
    ∃ r, c.at n.channel = some r ∧ (r.pendingToken = some token → r.pendingEventAt = some n.arrival.eventAt)

/-- The notice is of an arrival, and was not tried too often. -/
def Notice.Genuine (arrives : Arrival → Prop) (n : Notice) : Prop :=
  arrives n.arrival ∧ n.retryCount ≤ 2

/-- What holds of a message that waits. -/
def Fits (arrives : Arrival → Prop) : Message → Context → Prop
  | .stateMigrate n, _ => n.Genuine arrives
  | .stateRead n, _ => n.Genuine arrives
  | .stateWrite n, c => n.Genuine arrives ∧ n.Held c
  | .deliveryAck n, c => n.Genuine arrives ∧ n.Held c
  | .dryRun n, c => n.Genuine arrives ∧ n.Held c
  | .deliveryFailure n, c => n.Genuine arrives ∧ n.Held c
  | .dispatch _, _ => True

theorem Notice.Held.called (h : n.Held c) : ∃ r, c.at n.channel = some r ∧ n.called c = some r := by
  obtain ⟨token, -, -, r, hr, -⟩ := h
  refine ⟨r, hr, ?_⟩
  show (c.at n.channel <|> n.recipient) = some r
  rw [hr]
  rfl

theorem at_eq_getD (ch : Channel) :
    (c.at ch).getD .empty = (((c.delivery ch.1).getD .empty).deliveries ch.2).getD .empty := by
  unfold Context.at Context.recipient
  cases c.delivery ch.1 <;> rfl

theorem change_stateMigrate (n : Notice) : Change now c (.stateMigrate n) (stateMigrate n c) := by
  unfold stateMigrate
  cases hd : c.delivery n.arrival.mode with
  | some d => exact .found
  | none =>
    refine .migrate hd fun s r hr => ?_
    simp only at hr
    split_ifs at hr
    obtain ⟨i, -, rfl⟩ := Option.map_eq_some_iff.1 hr
    exact ⟨rfl, rfl⟩

theorem change_stateRead (n : Notice) : Change now c (.stateRead n) (stateRead now n c) := by
  by_cases hdup : ((c.at n.channel).getD .empty).duplicate n.arrival now
  · have hread : stateRead now n c = (c, []) := by
      rw [at_eq_getD] at hdup
      exact if_pos hdup
    rw [hread]
    exact .quiet (fun n' h => by rcases h.1 with h | h <;> cases h) fun n' h => by cases h.1
  · have hread : stateRead now n c = (c.reserve n.channel
        (((c.at n.channel).getD .empty).reserve n.arrival ⟨now, c.sequence n.arrival.mode + 1⟩ now),
        [.stateWrite (n.reserved ⟨now, c.sequence n.arrival.mode + 1⟩
          (((c.at n.channel).getD .empty).reserve n.arrival
            ⟨now, c.sequence n.arrival.mode + 1⟩ now))]) := by
      rw [at_eq_getD] at hdup ⊢
      exact if_neg hdup
    rw [hread]
    exact .reserve rfl hdup rfl rfl

theorem change_stateWrite (n : Notice) : Change now c (.stateWrite n) (stateWrite n c) := by
  have hquiet : stateWrite n c = (c, []) → Change now c (.stateWrite n) (stateWrite n c) := by
    intro hwrite
    rw [hwrite]
    exact .quiet (fun n' h => by rcases h.1 with h | h <;> cases h) fun n' h => by cases h.1
  cases hr : c.at n.channel with
  | none =>
    refine hquiet ?_
    unfold stateWrite
    simp only [show c.recipient n.arrival.mode n.arrival.source = none from hr]
    cases c.delivery n.arrival.mode <;> rfl
  | some r =>
    obtain ⟨d, hd, hdr⟩ := Option.bind_eq_some_iff.1 (show (c.delivery n.arrival.mode).bind _ = some r from hr)
    by_cases howns : r.pendingToken = n.reservation ∧ r.pendingKey = some n.arrival.key ∧
        r.pendingDispatched ≠ true
    · have hwrite : stateWrite n c = (c.amend n.channel { r with pendingDispatched := true },
          [.dispatch { n with recipient := some { r with pendingDispatched := true } }]) := by
        unfold stateWrite Context.amend
        simp only [Notice.channel, hd, show c.recipient n.arrival.mode n.arrival.source = some r from hr,
          if_pos howns, Option.getD_some]
      rw [hwrite]
      exact .pass hr howns.1 howns.2.1 howns.2.2 rfl
    · refine hquiet ?_
      unfold stateWrite
      simp only [hd, show c.recipient n.arrival.mode n.arrival.source = some r from hr, if_neg howns]

theorem change_accept (n : Notice) (hm : m = .deliveryAck n ∨ m = .dryRun n) (hheld : n.Held c) :
    Change now c m (accept now n c) := by
  obtain ⟨r, hr, hcalled⟩ := hheld.called
  by_cases howns : r.pendingToken = n.reservation
  · have haccept : accept now n c = (c.amend n.channel (r.accept n.arrival now), []) := by
      unfold accept Context.amend
      simp only [hcalled, Option.bind_some, if_pos howns, Option.getD_some, Notice.channel]
    rw [haccept]
    exact .accept hm hr howns
  · have haccept : accept now n c = (c, []) := by
      unfold accept
      simp only [hcalled, Option.bind_some, if_neg howns]
    rw [haccept]
    refine .quiet (fun n' h => ?_) fun n' h => ?_
    · obtain rfl : n' = n := by rcases hm with rfl | rfl <;> rcases h.1 with h | h <;> cases h <;> rfl
      have htoken := h.2
      rw [show n'.called _ = some r from hcalled] at htoken
      exact howns htoken
    · rcases hm with rfl | rfl <;> cases h.1

theorem change_deliveryFailure (n : Notice) (hheld : n.Held c) :
    Change now c (.deliveryFailure n) (deliveryFailure n c) := by
  obtain ⟨r, hr, hcalled⟩ := hheld.called
  by_cases howns : n.owns c
  · have hfailure : deliveryFailure n c = (c.amend n.channel r.release,
        if n.retry.retryCount ≤ 2 then [.stateRead n.retry] else []) := by
      unfold deliveryFailure Context.amend Notice.retry
      simp only [if_pos howns, hcalled, Option.getD_some, Notice.channel]
    rw [hfailure]
    obtain ⟨r', hr', hkey, htoken⟩ := howns
    obtain rfl : r' = r := Option.some.inj ((show n.called c = some r' from hr').symm.trans hcalled)
    exact .release hr htoken hkey
  · have hfailure : deliveryFailure n c = (c, []) := if_neg howns
    rw [hfailure]
    refine .quiet (fun n' h => by rcases h.1 with h | h <;> cases h) fun n' h => ?_
    obtain rfl := Message.deliveryFailure.inj h.1
    exact howns h.2

/-- **What handling a message does.** -/
theorem change_of_fits {arrives : Arrival → Prop} (hfits : Fits arrives m c) :
    Change now c m (nodes now m c) := by
  cases m with
  | stateMigrate n => exact change_stateMigrate n
  | stateRead n => exact change_stateRead n
  | stateWrite n => exact change_stateWrite n
  | deliveryAck n => exact change_accept n (Or.inl rfl) hfits.2
  | dryRun n => exact change_accept n (Or.inr rfl) hfits.2
  | deliveryFailure n => exact change_deliveryFailure n hfits.2
  | dispatch n => exact .quiet (fun n' h => by rcases h.1 with h | h <;> cases h) fun n' h => by cases h.1

end SmartHome.ResidentNotifications
