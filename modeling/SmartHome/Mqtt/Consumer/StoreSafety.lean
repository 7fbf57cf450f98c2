/-
  The store is crash safe: whatever the four operations are given and wherever they are
  interrupted, `ack.json` never runs ahead of `state.json`, stale commits change nothing, and
  a commit that was cut between its two writes is completed by running it again.
-/
import SmartHome.Mqtt.Consumer.Store
import SmartHome.Mqtt.Consumer.Transition
import SmartHome.Lib.Machine
import SmartHome.Lib.Writes
import SmartHome.Mqtt.Capacity

namespace SmartHome.Mqtt.Consumer

open Verif

section
variable [Sha256] {f : Files} {proposal : String} {checkpoint : Option Json}

/-! ## What the operations do -/

theorem Files.readState_ok {o : Option ConsumerState} :
    f.readState = .ok o ↔ o = f.state ∧ ∀ s ∈ f.state, s.Stored := by
  simp only [readState, bind_ok, need_eq_ok, exists_unit, pure_ok]
  constructor
  · rintro ⟨h, rfl⟩
    exact ⟨rfl, h⟩
  · rintro ⟨rfl, h⟩
    exact ⟨h, rfl⟩

/-- What binding a checkpoint does to a state: nothing else changes. -/
theorem Files.withCheckpoint_ok {previous : Option Checkpoint} {s s' : ConsumerState} {sha : Hex 64}
    (h : withCheckpoint previous s sha checkpoint = .ok s') :
    (checkpoint = none ∧ previous = none ∧ s' = s) ∨
    ∃ j c, checkpoint = some j ∧ Checkpoint.read j = some c ∧
      c.Binds previous s.lastReceipt s.ackedCounts sha ∧
      s' = { s with canvasCheckpoint := some c } ∧ s'.Valid := by
  cases checkpoint with
  | none =>
    simp only [withCheckpoint, bind_ok, need_eq_ok, exists_unit, pure_ok] at h
    exact Or.inl ⟨rfl, h.1, h.2.symm⟩
  | some j =>
    simp only [withCheckpoint, bind_ok, need_eq_ok, exists_unit, orFail_eq_ok, pure_ok] at h
    obtain ⟨c, hc, hb, hv, rfl⟩ := h
    exact Or.inr ⟨j, c, rfl, hc, hb, rfl, hv⟩

/-- A commit that writes, taken apart. -/
structure Files.Commits (f : Files) (proposal : String) (checkpoint : Option Json) (plan : Plan)
    (result : Outcome) (s : ConsumerState) : Prop where
  proposal : hex? 64 (.str proposal) = some plan.sha256
  prepared : f.prepared = some plan
  stored : ∀ s ∈ f.state, s.Stored
  base : f.state.map ConsumerState.sha256 = plan.baseStateSha
  transition : transition f.state plan.report.text = .ok result
  bound : Files.withCheckpoint (f.state.bind ConsumerState.canvasCheckpoint) result.state
    plan.sha256 checkpoint = .ok s
  capacity : (wrapper s.json).canonical.length ≤ limit

/-- What a commit of a state returns. -/
def Files.committed (f : Files) (checkpoint : Option Json) (result : Outcome) (s : ConsumerState) :
    Committed :=
  .committed s.sha256 (if checkpoint.isSome then s.canvasCheckpoint.map fun c => digest c.json else none)
    (result.ack.isSome && decide (f.ack ≠ result.ack)) result.ack.isSome

/-- **A commit is stale and writes nothing, or it writes the state and then its
    acknowledgement.** -/
theorem Files.commit_cases {ws : List Write} {r : Committed}
    (h : f.commit proposal checkpoint = .ok (ws, r)) :
    (ws = [] ∧ r = .stalePrepare) ∨
    ∃ plan result s, f.Commits proposal checkpoint plan result s ∧
      ws = .state s :: (result.ack.map Write.ack).toList ∧ r = f.committed checkpoint result s := by
  simp only [commit, bind_ok, orFail_eq_ok] at h
  obtain ⟨sha, hsha, plan, hplan, h⟩ := h
  by_cases hne : plan.sha256 ≠ sha
  · rw [if_pos hne, pure_ok, Prod.mk.injEq] at h
    exact Or.inl ⟨h.1.symm, h.2.symm⟩
  rw [if_neg hne] at h
  simp only [bind_ok, readState_ok] at h
  obtain ⟨old, ⟨rfl, hstored⟩, h⟩ := h
  by_cases hbase : f.state.map ConsumerState.sha256 ≠ plan.baseStateSha
  · rw [if_pos hbase, pure_ok, Prod.mk.injEq] at h
    exact Or.inl ⟨h.1.symm, h.2.symm⟩
  rw [if_neg hbase] at h
  simp only [bind_ok, need_eq_ok, exists_unit, pure_ok, Prod.mk.injEq] at h
  obtain ⟨result, hres, s, hs, hcap, rfl, rfl⟩ := h
  obtain rfl : plan.sha256 = sha := not_not.1 hne
  exact Or.inr ⟨plan, result, s, ⟨hsha, hplan, hstored, not_not.1 hbase, hres, hs, hcap⟩, rfl, rfl⟩

/-- The commit whose parts all hold. -/
theorem Files.Commits.run {plan : Plan} {result : Outcome} {s : ConsumerState}
    (h : f.Commits proposal checkpoint plan result s) : f.commit proposal checkpoint =
      .ok (.state s :: (result.ack.map Write.ack).toList, f.committed checkpoint result s) := by
  have hread : f.readState = .ok f.state := readState_ok.2 ⟨rfl, h.stored⟩
  simp [commit, h.proposal, h.prepared, orFail, hread, h.base, h.transition, h.bound, need,
    h.capacity, committed]

/-- A commit of a checkpoint alone writes nothing or a state that differs only in it. -/
theorem Files.commitCheckpoint_cases {ws : List Write} {r : Committed}
    (h : f.commitCheckpoint proposal checkpoint = .ok (ws, r)) :
    (ws = [] ∧ r = .stalePrepare) ∨
    ∃ s c, f.state = some s ∧ ws = [.state { s with canvasCheckpoint := some c }] ∧
      c.Anchored s.lastReceipt s.ackedCounts ∧
      ({ s with canvasCheckpoint := some c } : ConsumerState).Valid ∧
      hex? 64 (.str proposal) = some s.checkpointProposal := by
  simp only [commitCheckpoint, bind_ok, orFail_eq_ok, readState_ok] at h
  obtain ⟨sha, hsha, j, -, old, ⟨rfl, -⟩, s, hs, h⟩ := h
  split_ifs at h with hne
  · simp only [pure_ok, Prod.mk.injEq] at h
    exact Or.inl ⟨h.1.symm, h.2.symm⟩
  simp only [bind_ok, need_eq_ok, exists_unit, orFail_eq_ok, pure_ok, Prod.mk.injEq] at h
  obtain ⟨c, -, hbind, hv, -, rfl, -⟩ := h
  exact Or.inr ⟨s, c, hs, rfl, hbind.1, hv, by rw [hsha, not_not.1 hne]⟩

/-- A transition leaves the checkpoint of the canvas alone. -/
theorem Takes.canvasCheckpoint {previous : Option ConsumerState} {raw : List Char} {e : Envelope}
    {middle : ConsumerState} {o : Outcome} (h : Takes previous raw e middle o) :
    o.state.canvasCheckpoint = previous.bind ConsumerState.canvasCheckpoint := by
  have hprev : (previous.getD initialState).canvasCheckpoint =
      previous.bind ConsumerState.canvasCheckpoint := by cases previous <;> rfl
  have hmid : middle.canvasCheckpoint = (previous.getD initialState).canvasCheckpoint := by
    rcases ConsumerState.takeReceipt_cases h.receipt with ⟨hm, -⟩ | ⟨r, p, f, -, -, -, -, -, -, hm, -⟩
    · rw [hm]; rfl
    · rw [hm]; rfl
  rcases ConsumerState.takePacket_cases h.packet with ⟨hs, -⟩ | ⟨p, -, -, -, hs⟩
  · rw [hs, hmid, hprev]
  · rw [hs, ← hprev, ← hmid]; rfl

/-- Only the checkpoint of a state may differ. -/
def ConsumerState.SameAccounts (s s' : ConsumerState) : Prop :=
  s' = { s with canvasCheckpoint := s'.canvasCheckpoint }

omit [Sha256] in
theorem ConsumerState.SameAccounts.refl (s : ConsumerState) : s.SameAccounts s := rfl

omit [Sha256] in
theorem Current.sameAccounts [Sha256] {e : Envelope} {s s' : ConsumerState} (h : Current e s)
    (hs : s.SameAccounts s') : Current e s' := by
  rw [hs]
  exact ⟨h.clock, h.receipt, h.receiptSha, h.noPacket, h.packet⟩

/-- The state that a commit writes: the outcome of the report, but for the checkpoint, and fit to
    be read again. -/
theorem Files.Commits.state {plan : Plan} {result : Outcome} {s : ConsumerState}
    (h : f.Commits proposal checkpoint plan result s) :
    result.state.SameAccounts s ∧ s.Stored ∧
    (checkpoint = none → s = result.state ∧ s.canvasCheckpoint = none) := by
  obtain ⟨e, middle, ht⟩ := transition_ok.1 h.transition
  rcases withCheckpoint_ok h.bound with ⟨hc, hprev, hs⟩ | ⟨j, c, hc, -, hbind, rfl, hv⟩
  · have hnone : result.state.canvasCheckpoint = none := by rw [ht.canvasCheckpoint]; exact hprev
    rw [hs]
    refine ⟨rfl, ⟨ht.next, ?_⟩, fun _ => ⟨rfl, hnone⟩⟩
    rw [hnone]
    rintro c ⟨⟩
  · refine ⟨rfl, ⟨hv, ?_⟩, ?_⟩
    · rintro c' ⟨⟩; exact hbind.1
    · rw [hc]; nofun

/-! ## The invariant -/

/-- `ack.json` does not run ahead of `state.json`: the packet it names is recorded there. -/
def Files.AckRecorded (f : Files) : Prop :=
  ∀ a ∈ f.ack, ∃ s ∈ f.state, a.bucketId ≤ s.lastPacket ∧
    (a.bucketId = s.lastPacket → some a.sha256 = s.lastPacketSha)

/-- What is recorded in a state is recorded in the outcome of a transition. -/
theorem Takes.recorded {s : ConsumerState} {raw : List Char} {e : Envelope}
    {middle : ConsumerState} {o : Outcome} (h : Takes (some s) raw e middle o) :
    s.lastPacket < o.state.lastPacket ∨
      o.state.lastPacket = s.lastPacket ∧ o.state.lastPacketSha = s.lastPacketSha := by
  have hmid : middle.lastPacket = s.lastPacket ∧ middle.lastPacketSha = s.lastPacketSha := by
    rcases ConsumerState.takeReceipt_cases h.receipt with ⟨hm, -⟩ | ⟨r, p, f, -, -, -, -, -, -, hm, -⟩
    · rw [hm]; exact ⟨rfl, rfl⟩
    · rw [hm]; exact ⟨rfl, rfl⟩
  rcases ConsumerState.takePacket_cases h.packet with ⟨hs, -⟩ | ⟨p, -, -, hid, hs⟩
  · rw [hs]; exact Or.inr hmid
  · left
    have hnew : o.state.lastPacket = p.body.bucketId := by rw [hs]; rfl
    omega

/-- The acknowledgement of a valid state names its last packet. -/
theorem ConsumerState.Valid.ack {s : ConsumerState} (h : s.Valid) : ∀ a ∈ s.pending.map ackFor,
    a.bucketId = s.lastPacket ∧ some a.sha256 = s.lastPacketSha := by
  rintro a ha
  obtain ⟨p, hp, rfl⟩ := Option.map_eq_some_iff.1 ha
  exact ⟨(h.pending p hp).id, (h.pending p hp).sha256⟩

/-- Each write of a commit keeps the acknowledgement recorded. -/
theorem Files.AckRecorded.commit {plan : Plan} {result : Outcome} {s : ConsumerState} {f' : Files}
    (hf : f.AckRecorded) (h : f.Commits proposal checkpoint plan result s)
    (hf' : Interrupted Files.write (.state s :: (result.ack.map Write.ack).toList) f f') :
    f'.AckRecorded := by
  obtain ⟨e, middle, ht⟩ := transition_ok.1 h.transition
  have hpacket : s.lastPacket = result.state.lastPacket ∧
      s.lastPacketSha = result.state.lastPacketSha := by
    rw [h.state.1]; exact ⟨rfl, rfl⟩
  have hstate : (f.write (.state s)).AckRecorded := by
    intro a ha
    obtain ⟨old, hold, hle, hsha⟩ := hf a ha
    rw [hold] at ht
    refine ⟨s, rfl, ?_⟩
    rw [hpacket.1, hpacket.2]
    rcases ht.recorded with hlt | ⟨hid, hs⟩
    · exact ⟨by omega, fun he => by omega⟩
    · rw [hid, hs]; exact ⟨hle, hsha⟩
  rcases interrupted_cons.1 hf' with rfl | hf'
  · exact hf
  cases hack : result.ack with
  | none =>
    rw [hack] at hf'
    rw [interrupted_nil.1 hf']; exact hstate
  | some a =>
    rw [hack] at hf'
    rcases interrupted_cons.1 hf' with rfl | hf'
    · exact hstate
    rw [interrupted_nil.1 hf']
    rintro a' ⟨⟩
    obtain ⟨hid, hsha⟩ := ht.next.ack a (by rw [← ht.ack]; exact hack)
    exact ⟨s, rfl, by rw [hpacket.1]; exact hid.le, fun _ => by rw [hpacket.2]; exact hsha⟩

/-- The files that a run of the four operations, cut anywhere, can leave behind. -/
def storeMachine : Machine Files where
  start f := f = Files.empty
  step f f' := ∃ op, Interrupted Files.write (f.writes op) f f'

omit [Sha256] in
/-- The writes of an operation that throws are none. -/
theorem writes_of {ε α : Type} {x : Except ε (List Write × α)} {f' : Files}
    (h : Interrupted Files.write (x.toOption.elim [] Prod.fst) f f') :
    f' = f ∨ ∃ ws r, x = .ok (ws, r) ∧ Interrupted Files.write ws f f' := by
  cases x with
  | error e => exact Or.inl (interrupted_nil.1 h)
  | ok r => exact Or.inr ⟨r.1, r.2, rfl, h⟩

/-- `commitCheckpoint` changes at most the checkpoint of the state. -/
theorem Files.commitCheckpoint_keeps {f' : Files}
    (h : Interrupted Files.write (f.writes (.commitCheckpoint proposal checkpoint)) f f') :
    f' = f ∨ ∃ s ∈ f.state, ∃ s', s.SameAccounts s' ∧
      hex? 64 (.str proposal) = some s.checkpointProposal ∧ f' = f.write (.state s') := by
  rcases writes_of h with rfl | ⟨ws, r, hok, h⟩
  · exact Or.inl rfl
  rcases commitCheckpoint_cases hok with ⟨rfl, -⟩ | ⟨s, c, hs, rfl, -, -, hp⟩
  · exact Or.inl (interrupted_nil.1 h)
  rcases interrupted_cons.1 h with rfl | h
  · exact Or.inl rfl
  · exact Or.inr ⟨s, hs, { s with canvasCheckpoint := some c }, rfl, hp, interrupted_nil.1 h⟩

theorem storeMachine_invariant : storeMachine.Invariant Files.AckRecorded where
  start := by
    rintro f rfl a ⟨⟩
  step := by
    rintro f f' - hf ⟨op, h⟩
    cases op with
    | prepare report =>
      rcases writes_of h with rfl | ⟨ws, r, hok, h⟩
      · exact hf
      simp only [Files.prepare, bind_ok, orFail_eq_ok, need_eq_ok, exists_unit, pure_ok,
        Prod.mk.injEq] at hok
      obtain ⟨old, -, raw, -, e, -, o, -, -, rfl, -⟩ := hok
      rcases interrupted_cons.1 h with rfl | h
      · exact hf
      · rw [interrupted_nil.1 h]; exact hf
    | commit proposal checkpoint =>
      rcases writes_of h with rfl | ⟨ws, r, hok, h⟩
      · exact hf
      rcases Files.commit_cases hok with ⟨rfl, -⟩ | ⟨plan, result, s, hc, rfl, -⟩
      · rw [interrupted_nil.1 h]; exact hf
      · exact hf.commit hc h
    | prepareCheckpoint => rw [interrupted_nil.1 h]; exact hf
    | commitCheckpoint proposal checkpoint =>
      rcases Files.commitCheckpoint_keeps h with rfl | ⟨s, hs, s', hsame, -, rfl⟩
      · exact hf
      intro a ha
      obtain ⟨s₀, hs₀, hle⟩ := hf a ha
      obtain rfl : s₀ = s := Option.some.inj (hs₀.symm.trans hs)
      exact ⟨s', rfl, by rw [hsame]; exact hle⟩

/-! ## Stale proposals -/

/-- A proposal that is not the prepared one, or was prepared for another state. -/
def Files.Stale (f : Files) (proposal : String) : Prop :=
  ∀ plan ∈ f.prepared, hex? 64 (.str proposal) = some plan.sha256 →
    f.state.map ConsumerState.sha256 ≠ plan.baseStateSha

theorem Files.Stale.unchanged {f' : Files} (hs : f.Stale proposal)
    (h : Interrupted Files.write (f.writes (.commit proposal checkpoint)) f f') : f' = f := by
  rcases writes_of h with rfl | ⟨ws, r, hok, h⟩
  · rfl
  rcases commit_cases hok with ⟨rfl, -⟩ | ⟨plan, result, s, hc, -, -⟩
  · exact interrupted_nil.1 h
  · exact absurd hc.base (hs plan hc.prepared hc.proposal)

/-- A checkpoint proposal for another state. -/
theorem Files.commitCheckpoint_stale {f' : Files}
    (hs : ∀ s ∈ f.state, hex? 64 (.str proposal) ≠ some s.checkpointProposal)
    (h : Interrupted Files.write (f.writes (.commitCheckpoint proposal checkpoint)) f f') :
    f' = f := by
  rcases commitCheckpoint_keeps h with rfl | ⟨s, hm, s', -, hp, -⟩
  · rfl
  · exact absurd hp (hs s hm)

/-! ## Resuming -/

/-- A report that is read has a text that fits a ticket. -/
theorem length_ticket {plan : Plan} {e : Envelope} (h : decodeEnvelope plan.report.text = some e) :
    (wrapper plan.json).canonical.length ≤ limit := by
  have hreport : plan.report.json.render.length ≤ reportLimit := by
    simp only [decodeEnvelope, bind_some, guard_some, exists_unit] at h
    obtain ⟨⟨hlen, -⟩, -⟩ := h
    rw [Envelope.text, Json.length_canonical] at hlen
    exact hlen
  have hbase : (optHexJson plan.baseStateSha).render.length ≤ 66 := length_optHex _
  have hsha := length_hex (digest plan.json)
  have hone : (Json.int 1).render.length = 1 := by decide
  have hplan : plan.json.render.length ≤ 66000 := by
    refine (Json.length_obj_le _).trans ?_
    simp [Json.memberLen, Json.quote, Json.escape, hone]
    simp only [reportLimit] at hreport
    omega
  rw [Json.length_canonical]
  refine (Json.length_obj_le _).trans ?_
  simp [Json.memberLen, Json.quote, Json.escape, hone]
  simp only [limit]
  omega

/-- The files after the first write of a commit. -/
def Files.cut (f : Files) (s : ConsumerState) : Files := f.write (.state s)

/-- The proposal for the report of a commit that was cut after its state. -/
def Plan.again (plan : Plan) (s : ConsumerState) : Plan := ⟨some s.sha256, plan.report⟩

section
variable {plan : Plan} {result : Outcome} {s : ConsumerState}

/-- The report of a commit that was cut changes nothing in the state that it left. -/
theorem Files.Commits.repeats (h : f.Commits proposal checkpoint plan result s) :
    Consumer.transition (some s) plan.report.text = .ok ⟨s, result.ack, false, []⟩ := by
  obtain ⟨e, middle, ht⟩ := transition_ok.1 h.transition
  obtain ⟨hsame, hstored, -⟩ := h.state
  have hpending : s.pending = result.state.pending := by rw [hsame]
  rw [ht.ack, ← hpending]
  exact (ht.current.sameAccounts hsame).transition ht.decoded hstored.1

/-- **`prepare` on the report of a commit that was cut proposes it again.** -/
theorem Files.Commits.prepare (h : f.Commits proposal checkpoint plan result s)
    {raw : List Char} (hraw : decodeEnvelope raw = some plan.report) :
    ∃ out, (f.cut s).prepare (some raw) = .ok ([.prepared (plan.again s)], out) ∧
      out.proposalSha = (plan.again s).sha256 ∧ out.receivedCounts = s.receivedCounts ∧
      out.acknowledgedCounts = s.ackedCounts ∧ out.receiptFacts = [] ∧
      out.ackIntended = result.ack.isSome := by
  obtain ⟨e, middle, ht⟩ := transition_ok.1 h.transition
  have hread : (f.cut s).readState = .ok (some s) :=
    readState_ok.2 ⟨rfl, by rintro s' ⟨⟩; exact h.state.2.1⟩
  have hcap : (wrapper (plan.again s).json).canonical.length ≤ limit :=
    @length_ticket _ (plan.again s) e ht.decoded
  simp only [Plan.again] at hcap
  refine ⟨⟨(plan.again s).sha256, some s.sha256, digest plan.report.bodyJson, s.pending,
    s.receivedCounts, s.ackedCounts, [], s.canvasCheckpoint,
    s.canvasCheckpoint.map fun c => digest c.json, some (checkpointPlan s),
    s.clockDomainChanges, result.ack.isSome⟩, ?_, rfl, rfl, rfl, rfl, rfl⟩
  simp only [Files.prepare, hread, ok_bind, orFail, hraw, h.repeats, Option.map_some, need, hcap,
    if_true, pure_eq_ok, Option.bind_some, Plan.again]

/-- **`commit` of that proposal writes the acknowledgement that was missing**, and at most the
    checkpoint of the state. -/
theorem Files.Commits.resume (h : f.Commits proposal checkpoint plan result s) {p : String}
    {c : Option Json} {s' : ConsumerState} (hp : hex? 64 (.str p) = some (plan.again s).sha256)
    (hbound : Files.withCheckpoint s.canvasCheckpoint s (plan.again s).sha256 c = .ok s')
    (hcap : (wrapper s'.json).canonical.length ≤ limit) :
    ((f.cut s).write (.prepared (plan.again s))).commit p c =
      .ok (.state s' :: (result.ack.map Write.ack).toList,
        ((f.cut s).write (.prepared (plan.again s))).committed c ⟨s, result.ack, false, []⟩ s') ∧
    s.SameAccounts s' := by
  have hc : ((f.cut s).write (.prepared (plan.again s))).Commits p c (plan.again s)
      ⟨s, result.ack, false, []⟩ s' :=
    { proposal := hp
      prepared := rfl
      stored := by rintro s₀ ⟨⟩; exact h.state.2.1
      base := rfl
      transition := h.repeats
      bound := hbound
      capacity := hcap }
  exact ⟨hc.run, hc.state.1⟩

end

/-- A commit of the proposal that was prepared again is never stale: it writes the acknowledgement
    that was missing beside the same accounts. -/
theorem Files.Commits.recommits {plan : Plan} {result : Outcome} {s : ConsumerState}
    (h : f.Commits proposal checkpoint plan result s) {p : String} {c : Option Json}
    {ws : List Write} {r : Committed} (hp : hex? 64 (.str p) = some (plan.again s).sha256)
    (hc : ((f.cut s).write (.prepared (plan.again s))).commit p c = .ok (ws, r)) :
    ∃ s', s.SameAccounts s' ∧ (c = none → s' = s) ∧
      ws = .state s' :: (result.ack.map Write.ack).toList := by
  have hplan : ∀ plan', ((f.cut s).write (.prepared (plan.again s))).prepared = some plan' →
      plan' = plan.again s := by
    rintro plan' ⟨⟩; rfl
  rcases commit_cases hc with ⟨-, rfl⟩ | ⟨plan', result', s', hc', rfl, -⟩
  · -- neither the proposal nor its base is stale
    rw [commit, hp] at hc
    simp only [orFail, ok_bind, write, ne_eq, not_true_eq_false, if_false, cut, bind_ok,
      readState_ok] at hc
    obtain ⟨old, ⟨rfl, -⟩, hc⟩ := hc
    rw [if_neg (by simp [Plan.again])] at hc
    simp [bind_ok] at hc
  · obtain rfl := hplan plan' hc'.prepared
    have hres : result' = ⟨s, result.ack, false, []⟩ :=
      Except.ok.inj (hc'.transition.symm.trans h.repeats)
    rw [hres] at hc' ⊢
    exact ⟨s', hc'.state.1, fun hn => (hc'.state.2.2 hn).1, rfl⟩

end

end SmartHome.Mqtt.Consumer
