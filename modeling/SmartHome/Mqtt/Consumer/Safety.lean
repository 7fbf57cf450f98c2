/-
  The consumer against arbitrary producers: whatever texts are presented, packets are counted
  one after the other and each once, the counts add up, and an old report changes nothing.

  Beside the state a run keeps, for the proofs only, the packets that were counted, the facts
  of the receipts and the texts that were accepted, each newest first.
-/
import SmartHome.Mqtt.Consumer.Transition

namespace SmartHome.Mqtt.Consumer

open Verif

section
variable [Sha256]

/-! ## Runs -/

/-- The state of a run, with what was counted, settled and accepted. -/
structure Log where
  state : Option ConsumerState
  packets : List Packet
  facts : List Facts
  accepted : List (List Char)

def Log.empty : Log := ⟨none, [], [], []⟩

/-- The packet that a transition counts: the one that moves the packet counter. -/
def counted (previous : Option ConsumerState) (s : ConsumerState) : List Packet :=
  if (previous.getD initialState).lastPacket < s.lastPacket then s.pending.toList else []

/-- Present a text; a transition that stops leaves everything as it was. -/
def Log.step (l : Log) (raw : List Char) : Log :=
  match transition l.state raw with
  | .error _ => l
  | .ok o => ⟨some o.state, counted l.state o.state ++ l.packets, o.receiptFacts ++ l.facts,
      raw :: l.accepted⟩

def Log.run (raws : List (List Char)) : Log := raws.foldl Log.step Log.empty

/-- The state of a run is the fold of `transition`. -/
theorem Log.run_state (raws : List (List Char)) : (Log.run raws).state =
    raws.foldl (fun s raw => match transition s raw with
      | .error _ => s
      | .ok o => some o.state) none := by
  have h : ∀ (raws : List (List Char)) (l : Log), (raws.foldl Log.step l).state =
      raws.foldl (fun s raw => match transition s raw with
        | .error _ => s
        | .ok o => some o.state) l.state := by
    intro raws
    induction raws with
    | nil => intro l; rfl
    | cons raw raws ih =>
      intro l
      rw [List.foldl_cons, List.foldl_cons, ih]
      congr 1
      unfold Log.step
      cases transition l.state raw <;> rfl
  exact h raws Log.empty

/-- What holds of the run of any texts. -/
structure Log.Safe (l : Log) : Prop where
  valid : ∀ s ∈ l.state, s.Valid
  consecutive : l.packets.map (fun p => p.body.bucketId) =
    (List.range' 1 (l.state.getD initialState).lastPacket).reverse
  received : (l.state.getD initialState).receivedCounts =
    (l.packets.map fun p => p.body.aggregate.counts).sum
  pending : ∀ s ∈ l.state, s.receivedCounts =
    s.ackedCounts + s.pending.elim 0 fun p => p.body.aggregate.counts
  observed : ∀ k, ((l.state.getD initialState).timing k).observed =
    (l.facts.map fun f => (f.byKind k).observed).sum
  timed : ∀ k, ((l.state.getD initialState).timing k).timed =
    (l.facts.map fun f => (f.byKind k).timed).sum
  timingUnknown : ∀ k, ((l.state.getD initialState).timing k).timingUnknown =
    (l.facts.map fun f => (f.byKind k).timingUnknown).sum
  maximum : ∀ k, ((l.state.getD initialState).timing k).maxUpperNs =
    (l.facts.map fun f => (f.byKind k).sourceToConsumerUpperNs).foldr Row.maxOpt none
  accepted : ∀ raw ∈ l.accepted, ∃ e, decodeEnvelope raw = some e ∧
    e.ackedBuckets ≤ (l.state.getD initialState).lastReceipt ∧
    ∀ p ∈ e.packet, p.body.bucketId ≤ (l.state.getD initialState).lastPacket

/-- What a transition counts: the packets and the receipt facts it adds. -/
theorem Takes.effect {previous : Option ConsumerState} {raw : List Char} {e : Envelope}
    {middle : ConsumerState} {o : Outcome} (h : Takes previous raw e middle o) :
    (o.state.lastPacket = (previous.getD initialState).lastPacket ∧ counted previous o.state = [] ∧
        o.state.receivedCounts = (previous.getD initialState).receivedCounts ∨
      ∃ p, counted previous o.state = [p] ∧ o.state.lastPacket = p.body.bucketId ∧
        p.body.bucketId = (previous.getD initialState).lastPacket + 1 ∧
        o.state.receivedCounts =
          (previous.getD initialState).receivedCounts + p.body.aggregate.counts) ∧
    (o.receiptFacts = [] ∧ o.state.timing = (previous.getD initialState).timing ∨
      ∃ f, o.receiptFacts = [f] ∧
        ∀ k, o.state.timing k = ((previous.getD initialState).timing k).add (f.byKind k)) ∧
    o.state.lastReceipt = middle.lastReceipt := by
  have hmid : middle.lastPacket = (previous.getD initialState).lastPacket ∧
      middle.receivedCounts = (previous.getD initialState).receivedCounts ∧
      (o.receiptFacts = [] ∧ middle.timing = (previous.getD initialState).timing ∨
        ∃ f, o.receiptFacts = [f] ∧
          ∀ k, middle.timing k = ((previous.getD initialState).timing k).add (f.byKind k)) := by
    rcases ConsumerState.takeReceipt_cases h.receipt with ⟨hm, hf, -⟩ | ⟨r, p, f, -, -, -, -, -, -, hm, hf⟩
    · rw [hm]; exact ⟨rfl, rfl, Or.inl ⟨hf, rfl⟩⟩
    · rw [hm]; exact ⟨rfl, rfl, Or.inr ⟨f, hf, fun _ => rfl⟩⟩
  obtain ⟨hpkt, hrec, htim⟩ := hmid
  rcases ConsumerState.takePacket_cases h.packet with ⟨hs, -⟩ | ⟨p, -, -, hid, hs⟩
  · rw [hs]
    refine ⟨Or.inl ⟨hpkt, ?_, hrec⟩, htim, rfl⟩
    rw [counted, if_neg (by rw [hpkt]; exact lt_irrefl _)]
  · rw [hs]
    refine ⟨Or.inr ⟨p, ?_, rfl, hid.trans (by rw [hpkt]), ?_⟩, htim, rfl⟩
    · rw [counted, if_pos (by simp only [ConsumerState.count]; omega)]; rfl
    · simp only [ConsumerState.count, hrec]

/-- A transition keeps a run safe. -/
theorem Log.Safe.step {l : Log} (h : l.Safe) (raw : List Char) : (l.step raw).Safe := by
  unfold Log.step
  cases htr : transition l.state raw with
  | error reason => exact h
  | ok o =>
    obtain ⟨e, middle, ht⟩ := transition_ok.1 htr
    obtain ⟨hpkt, hfacts, hrec⟩ := ht.effect
    have hgrows := ht.grows
    refine ⟨by rintro s ⟨⟩; exact ht.next, ?_, ?_, ?_, ?_, ?_, ?_, ?_, ?_⟩
    · rcases hpkt with ⟨hl, hc, -⟩ | ⟨p, hc, hl, hid, -⟩
      · simpa [hc, hl] using h.consecutive
      · simp only [hc, Option.getD_some, hl, hid, List.singleton_append, List.map_cons, h.consecutive,
          List.range'_1_concat, List.reverse_concat]
        rw [add_comm]
    · rcases hpkt with ⟨-, hc, hr⟩ | ⟨p, hc, -, -, hr⟩
      · simpa [hc, hr] using h.received
      · simp [hc, hr, h.received, add_comm]
    · rintro s ⟨⟩; exact ht.next.received_eq
    · intro k
      rcases hfacts with ⟨hf, hti⟩ | ⟨f, hf, hti⟩
      · simpa [hf, hti] using h.observed k
      · simp [hf, hti, TimingRow.add, h.observed k, add_comm]
    · intro k
      rcases hfacts with ⟨hf, hti⟩ | ⟨f, hf, hti⟩
      · simpa [hf, hti] using h.timed k
      · simp [hf, hti, TimingRow.add, h.timed k, add_comm]
    · intro k
      rcases hfacts with ⟨hf, hti⟩ | ⟨f, hf, hti⟩
      · simpa [hf, hti] using h.timingUnknown k
      · simp [hf, hti, TimingRow.add, h.timingUnknown k, add_comm]
    · intro k
      rcases hfacts with ⟨hf, hti⟩ | ⟨f, hf, hti⟩
      · simpa [hf, hti] using h.maximum k
      · simp [hf, hti, TimingRow.add, h.maximum k, Row.maxOpt_comm]
    · intro raw' hraw
      rcases List.mem_cons.1 hraw with rfl | hraw
      · refine ⟨e, ht.decoded, ?_, fun p hp => ?_⟩
        · rw [ht.acked.1, Option.getD_some, hrec]
        · rcases ConsumerState.takePacket_cases ht.packet with ⟨hs, -, hsome⟩ | ⟨q, hq, -, -, hs⟩
          · rw [Option.getD_some, hs]; exact (hsome p hp).1.le
          · rw [Option.getD_some, hs]
            rw [Option.mem_def, hq] at hp
            cases hp; exact le_rfl
      · obtain ⟨e', he', h1, h2⟩ := h.accepted raw' hraw
        exact ⟨e', he', h1.trans hgrows.lastReceipt, fun p hp => (h2 p hp).trans hgrows.lastPacket⟩

theorem Log.safe_empty : Log.empty.Safe where
  valid := by rintro s ⟨⟩
  consecutive := rfl
  received := rfl
  pending := by rintro s ⟨⟩
  observed := fun _ => rfl
  timed := fun _ => rfl
  timingUnknown := fun _ => rfl
  maximum := fun _ => rfl
  accepted := by rintro raw ⟨⟩

theorem Log.safe_foldl (raws : List (List Char)) : ∀ {l : Log}, l.Safe → (raws.foldl Log.step l).Safe := by
  induction raws with
  | nil => exact fun h => h
  | cons raw raws ih => exact fun h => ih (h.step raw)

/-- Later counters are not below earlier ones. -/
theorem Log.grows_foldl (more : List (List Char)) : ∀ l : Log,
    (l.state.getD initialState).Grows ((more.foldl Log.step l).state.getD initialState) := by
  induction more with
  | nil => exact fun l => ConsumerState.Grows.refl _
  | cons raw more ih =>
    intro l
    refine ConsumerState.Grows.trans ?_ (ih (l.step raw))
    unfold Log.step
    cases htr : transition l.state raw with
    | error reason => exact ConsumerState.Grows.refl _
    | ok o =>
      obtain ⟨e, middle, ht⟩ := transition_ok.1 htr
      exact ht.grows

/-- **The consumer is safe against arbitrary producers.**  For the run of any texts: receipts
    and packets are in step, the counted packets are numbered from one without gap or repeat,
    the counts are their sums and the timing rows those of the receipt facts; the counters only
    grow; a text accepted before, presented again, is refused or changes only what the state says
    about the clock domain of the reports; and the text just accepted changes nothing at all. -/
theorem consumer_safe (raws : List (List Char)) :
    (Log.run raws).Safe ∧
    (∀ s ∈ (Log.run raws).state, s.lastReceipt ≤ s.lastPacket ∧ s.lastPacket ≤ s.lastReceipt + 1) ∧
    (∀ more, ((Log.run raws).state.getD initialState).Grows
      ((Log.run (raws ++ more)).state.getD initialState)) ∧
    (∀ raw ∈ (Log.run raws).accepted, ∀ o, transition (Log.run raws).state raw = .ok o →
      ∃ domain, o.state = ((Log.run raws).state.getD initialState).noteClock domain ∧
        o.receiptFacts = []) ∧
    ∀ raw o, transition (Log.run raws).state raw = .ok o →
      transition (some o.state) raw = .ok ⟨o.state, o.ack, false, []⟩ := by
  have hsafe : (Log.run raws).Safe := Log.safe_foldl raws Log.safe_empty
  refine ⟨hsafe, fun s hs => (hsafe.valid s hs).ids, fun more => ?_, fun raw hraw o ho => ?_,
    fun raw o ho => transition_repeat ho⟩
  · rw [Log.run, Log.run, List.foldl_append]
    exact Log.grows_foldl more _
  · obtain ⟨e, middle, ht⟩ := transition_ok.1 ho
    obtain ⟨e', he', hack, hpkt⟩ := hsafe.accepted raw hraw
    obtain rfl : e' = e := Option.some.inj (he'.symm.trans ht.decoded)
    exact ⟨e'.sourceClockDomainId, ht.replay hack hpkt⟩

end
end SmartHome.Mqtt.Consumer
