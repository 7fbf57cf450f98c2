/-
  The handoff from producer to consumer over whole runs of both: every bucket is counted once,
  in order, and its receipt is recorded once, whatever is read late or twice and wherever
  either side is cut.
-/
import SmartHome.Mqtt.Bridge
import SmartHome.Mqtt.Consumer.Acceptance
import SmartHome.Mqtt.Consumer.StoreSafety
import SmartHome.Mqtt.LedgerRuns
import SmartHome.Mqtt.Moves

namespace SmartHome.Mqtt

open Verif Consumer

section
variable [Sha256]

/-! ## The producer's side -/

/-- A row whose handoff record agrees with the packets and receipts of the past. -/
structure Serves (ps : List Packet) (rs : List Receipt) (b : Body) : Prop where
  valid : b.handoff.Valid b.sourceCounts
  packets : ps.length = b.handoff.ackedBuckets + b.handoff.published.isSome.toNat
  receipts : rs.length = b.handoff.ackedBuckets
  counts : b.handoff.ackedCounts = countsOf ps b.handoff.ackedBuckets
  lastAck : b.handoff.lastAck = rs.getLast?
  published : ∀ p ∈ b.handoff.published, ps[b.handoff.ackedBuckets]? = some p
  rejections : b.handoff.ackRejections = 0

section
variable {ps : List Packet} {rs : List Receipt} {b c : Body}

/-- The report of a row. -/
theorem Serves.reports (h : Serves ps rs b) (hpast : Past ps rs) :
    Reports ps rs (b.envelope b.handoff.published) ∧
      (b.envelope b.handoff.published).stage = ps.length + rs.length := by
  have hwidth : b.handoff.ackedBuckets < 2 ^ 64 := by
    have h1 := h.valid.ids
    have h2 := h.valid.nextBucketId
    omega
  have hlast : ∀ r ∈ b.handoff.lastAck, r.Valid ∧ r.bucketId = b.handoff.ackedBuckets := h.valid.lastAck
  refine ⟨⟨⟨hwidth, h.valid.ackedCounts, hlast, h.valid.noAck, fun p hp => ?_⟩, h.receipts.ge, ?_,
    h.counts, h.published⟩, ?_⟩
  · obtain ⟨hs, hid, -⟩ := hpast.packet _ p (h.published p hp)
    exact ⟨hs, hid, (h.valid.published p hp).previousAck⟩
  · show b.handoff.lastAck = _
    rw [h.lastAck]
    show rs.getLast? = (rs.take b.handoff.ackedBuckets).getLast?
    rw [← h.receipts, List.take_length]
  · show 2 * b.handoff.ackedBuckets + b.handoff.published.isSome.toNat = _
    rw [h.packets, h.receipts]; omega

omit [Sha256] in
/-- Collecting adds nothing to the past. -/
theorem frozen_of_collected {active : Bucket} (hc : c.handoff = { b.handoff with active }) :
    frozen (some b) (some c) = [] ∧ settled (some b) (some c) = [] := by
  simp [frozen, settled, hc]

/-- A row that is replaced: the past grows by what the move adds, and the row serves it. -/
theorem Serves.moves (h : Serves ps rs b) (hpast : Past ps rs) (hm : b.Moves c)
    (hv : c.handoff.Valid c.sourceCounts) :
    Past (ps ++ frozen (some b) (some c)) (rs ++ settled (some b) (some c)) ∧
      Serves (ps ++ frozen (some b) (some c)) (rs ++ settled (some b) (some c)) c := by
  cases hm with
  | collected active hc =>
    obtain ⟨h1, h2⟩ := frozen_of_collected hc
    rw [h1, h2, List.append_nil, List.append_nil]
    refine ⟨hpast, hv, ?_, ?_, ?_, ?_, ?_, ?_⟩ <;> rw [hc]
    · exact h.packets
    · exact h.receipts
    · exact h.counts
    · exact h.lastAck
    · exact h.published
    · exact h.rejections
  | frozen p active hnone hid hprev hc =>
    have h1 : Mqtt.frozen (some b) (some c) = [p] := by simp [Mqtt.frozen, hc]
    have h2 : Mqtt.settled (some b) (some c) = [] := by simp [Mqtt.settled, hc]
    have hlen : ps.length = b.handoff.ackedBuckets := by
      have := h.packets
      rw [hnone] at this
      simpa using this
    have hnext : b.handoff.nextBucketId = ps.length + 1 := by
      have := h.valid.ids
      rw [hnone] at this
      simp at this
      omega
    have hpub := hv.published p (by rw [hc]; rfl)
    have hsend : Sendable p := by
      refine ⟨?_, hpub.publishedAtNs, hpub.aggregate, hpub.nonempty, hpub.sha256⟩
      have h1 := hv.nextBucketId.1
      rw [hc] at h1
      simp only at h1
      omega
    have hnew : (ps ++ [p])[ps.length]? = some p := by simp
    rw [h1, h2, List.append_nil]
    refine ⟨⟨⟨?_, ?_⟩, fun n q hq => ?_, fun n r hr => ?_⟩, hv, ?_, ?_, ?_, ?_, ?_, ?_⟩
    · have := hpast.order
      simp; omega
    · simp [hlen, h.receipts]
    · rcases Nat.lt_or_ge n ps.length with hlt | hge
      · rw [List.getElem?_append_left hlt] at hq
        exact hpast.packet n q hq
      · have hn : n = ps.length := by
          have := (List.getElem?_eq_some_iff.1 hq).1
          simp at this
          omega
        rw [hn, hnew] at hq
        cases hq
        refine ⟨hsend, by rw [hn, hid, hnext], ?_⟩
        rw [hprev, h.lastAck, hn, hlen, ← h.receipts, List.take_length]
    · obtain ⟨hrv, q, atNs, domain, hq, hrq⟩ := hpast.receipt n r hr
      have hlt := (List.getElem?_eq_some_iff.1 hq).1
      exact ⟨hrv, q, atNs, domain, by rw [List.getElem?_append_left hlt]; exact hq, hrq⟩
    all_goals rw [hc]
    · simp [hlen]
    · exact h.receipts
    · show b.handoff.ackedCounts = _
      rw [countsOf_append hlen.ge]; exact h.counts
    · exact h.lastAck
    · rintro q ⟨⟩
      show (ps ++ [p])[b.handoff.ackedBuckets]? = some p
      rw [← hlen]; exact hnew
    · exact h.rejections
  | settled p atNs domain conflicts active hp hc =>
    have h1 : Mqtt.frozen (some b) (some c) = [] := by simp [Mqtt.frozen, hc]
    have h2 : Mqtt.settled (some b) (some c) = [p.body.receipt atNs domain p.sha256] := by
      simp [Mqtt.settled, hc]
    have hget := h.published p hp
    have hlen : ps.length = b.handoff.ackedBuckets + 1 := by
      have := h.packets
      rw [hp] at this
      simpa using this
    have hrv : (p.body.receipt atNs domain p.sha256).Valid :=
      (hv.lastAck _ (by rw [hc]; rfl)).1
    rw [h1, h2, List.append_nil]
    refine ⟨⟨⟨?_, ?_⟩, fun n q hq => ?_, fun n r hr => ?_⟩, hv, ?_, ?_, ?_, ?_, ?_, ?_⟩
    · simp [hlen, h.receipts]
    · have := hpast.order
      simp; omega
    · obtain ⟨hs, hid, hprev⟩ := hpast.packet n q hq
      refine ⟨hs, hid, ?_⟩
      have hlt := (List.getElem?_eq_some_iff.1 hq).1
      rw [hprev, List.take_append_of_le_length (by rw [h.receipts]; omega)]
    · rcases Nat.lt_or_ge n rs.length with hlt | hge
      · rw [List.getElem?_append_left hlt] at hr
        exact hpast.receipt n r hr
      · have hn : n = rs.length := by
          have := (List.getElem?_eq_some_iff.1 hr).1
          simp at this
          omega
        rw [hn, List.getElem?_concat_length] at hr
        cases hr
        exact ⟨hrv, p, atNs, domain, by rw [hn, h.receipts]; exact hget, rfl⟩
    all_goals rw [hc]
    · simp [hlen]
    · simp [h.receipts]
    · show b.handoff.ackedCounts + p.body.aggregate.counts = countsOf ps (b.handoff.ackedBuckets + 1)
      rw [countsOf_succ hget, h.counts]
    · simp
    · rintro q ⟨⟩
    · exact h.rejections

end

/-! ## Acknowledgements -/

omit [Sha256] in
theorem neat_ack (a : Ack) : a.json.Neat := by
  refine Json.neat_obj (by simp only [List.map_cons, List.map_nil]; decide)
    (by simp only [List.map_cons, List.map_nil]; decide) ?_
  simp [neat_num, neat_hex, neat_int_one]

omit [Sha256] in
/-- What the consumer acknowledges, the producer reads. -/
theorem readAck_json {a : Ack} (h : a.bucketId < 2 ^ 64) :
    readAck a.json.canonical = a.json ∧ ack? a.json = some a := by
  obtain ⟨hascii, hparse⟩ := (neat_ack a).canonical
  have hlen : a.json.canonical.length ≤ ackLimit := by
    have hid := narrow_num a.bucketId (h.trans (by norm_num))
    have hsha := length_hex a.sha256
    have hone : (Json.int 1).render.length = 1 := by decide
    rw [Json.length_canonical]
    refine (Json.length_obj_le _).trans ?_
    simp [Json.memberLen, Json.quote, Json.escape, hone, ackLimit]
    omega
  have hunique : a.json.uniqueKeys = true := by
    simp [Ack.json, Json.uniqueKeys, Json.uniqueMembers, num, hexJson]
  constructor
  · rw [readAck, if_pos ⟨hlen, hascii⟩, hparse]
    simp only [hunique, and_self, if_true]
  · have hnumber : decimal? 19 (String.ofList (Json.decimal a.bucketId)) = some a.bucketId :=
      decimal?_decimal (h.trans (by norm_num))
    have hkeys : a.json.keys = some ["bucket_id", "schema_version", "sha256"] := rfl
    have hschema : a.json.get? "schema_version" = some (.int 1) := rfl
    have hid : a.json.get? "bucket_id" = some (.str (String.ofList (Json.decimal a.bucketId))) := rfl
    have hsha : a.json.get? "sha256" = some (hexJson a.sha256) := rfl
    simp only [ack?, hkeys, hschema, hid, hsha, bind_some, guard_some, exists_unit, hnumber,
      Option.some.injEq, exists_eq_left', pure_some]
    exact ⟨by decide, trivial, h, a.sha256, hex?_str _, rfl⟩

/-! ## Both sides -/

/-- The state of the consumer, the initial one if it has none. -/
def System.consumer (s : System) : ConsumerState := s.files.state.getD initialState

/-- What holds of producer, consumer and the files between them throughout a run. -/
structure System.Agrees (s : System) : Prop where
  past : Past s.packets s.receipts
  row : ∃ b, s.producer.ledger.row = some b ∧ Serves s.packets s.receipts b
  synced : s.producer.ledger.Synced
  draft : ∀ raw ∈ s.producer.draft, ∃ e, raw = e.text ∧ Reports s.packets s.receipts e ∧
    e.stage = s.packets.length + s.receipts.length
  report : ∀ raw ∈ s.report, ∃ e, raw = e.text ∧ Reports s.packets s.receipts e ∧
    s.consumer.stage ≤ e.stage ∧ ∀ plan ∈ s.files.prepared, plan.report.stage ≤ e.stage
  noReport : s.report = none → s.files.state = none ∧ s.files.prepared = none
  plan : ∀ plan ∈ s.files.prepared, Reports s.packets s.receipts plan.report ∧
    ∃ base o, plan.baseStateSha = base.map ConsumerState.sha256 ∧
      transition base plan.report.text = .ok o
  state : ∀ c ∈ s.files.state, c.Valid
  counted : Counted s.packets s.receipts s.consumer
  reached : s.receipts.length ≤ s.consumer.lastPacket
  ack : ∀ a ∈ s.files.ack, a.bucketId ≤ s.consumer.lastPacket ∧
    ∃ n p, a.bucketId = n + 1 ∧ s.packets[n]? = some p ∧ a.sha256 = p.sha256

namespace System.Agrees
variable {s : System}

/-! ### Steps of the producer -/

/-- The producer's process after an operation: its row is kept or moved. -/
theorem withProducer (h : s.Agrees) {p : Producer} (hsync : p.ledger.Synced)
    (hrow : p.ledger.row = s.producer.ledger.row ∨ ∃ b c, s.producer.ledger.row = some b ∧
      p.ledger.row = some c ∧ b.Moves c ∧ c.handoff.Valid c.sourceCounts ∧
      c.handoff.ackedBuckets ≤ s.consumer.lastPacket)
    (hdraft : ∀ raw ∈ p.draft, ∃ c, p.ledger.row = some c ∧
      raw = (c.envelope c.handoff.published).text) : (s.withProducer p).Agrees := by
  obtain ⟨b, hb, hserves⟩ := h.row
  have hrow' : ∃ c, p.ledger.row = some c ∧
      Past (s.withProducer p).packets (s.withProducer p).receipts ∧
      Serves (s.withProducer p).packets (s.withProducer p).receipts c ∧
      c.handoff.ackedBuckets ≤ s.consumer.lastPacket := by
    rcases hrow with hsame | ⟨b', c, hb', hc, hm, hv, hle⟩
    · refine ⟨b, hsame.trans hb, ?_⟩
      simp only [System.withProducer, hsame, frozen, settled, lt_irrefl, if_false, List.append_nil]
      exact ⟨h.past, hserves, by rw [← hserves.receipts]; exact h.reached⟩
    · obtain rfl : b' = b := Option.some.inj (hb'.symm.trans hb)
      refine ⟨c, hc, ?_⟩
      simp only [System.withProducer, hb, hc]
      obtain ⟨hpast, hs⟩ := hserves.moves h.past hm hv
      exact ⟨hpast, hs, hle⟩
  obtain ⟨c, hc, hpast, hs, hle⟩ := hrow'
  have hreports : ∀ {e}, Reports s.packets s.receipts e →
      Reports (s.withProducer p).packets (s.withProducer p).receipts e :=
    fun he => he.append h.past.order.1 _ _
  refine ⟨hpast, ⟨c, hc, hs⟩, hsync, fun raw hraw => ?_, fun raw hraw => ?_, h.noReport,
    fun plan hp => ?_, h.state, h.counted.append h.past.order.1 _ _, ?_, fun a ha => ?_⟩
  · obtain ⟨c', hc', rfl⟩ := hdraft raw hraw
    obtain rfl : c' = c := Option.some.inj (hc'.symm.trans hc)
    obtain ⟨hr, hstage⟩ := hs.reports hpast
    exact ⟨_, rfl, hr, hstage⟩
  · obtain ⟨e, he, hr, hst, hplan⟩ := h.report raw hraw
    exact ⟨e, he, hreports hr, hst, hplan⟩
  · obtain ⟨hr, hbase⟩ := h.plan plan hp
    exact ⟨hreports hr, hbase⟩
  · rw [hs.receipts]; exact hle
  · obtain ⟨hid, n, q, hn, hq, hsha⟩ := h.ack a ha
    have hlt := (List.getElem?_eq_some_iff.1 hq).1
    exact ⟨hid, n, q, hn, by
      show (s.packets ++ _)[n]? = some q
      rw [List.getElem?_append_left hlt]; exact hq, hsha⟩

/-- An operation of the ledger whose stored bodies only collect or freeze. -/
theorem perform (h : s.Agrees) {α : Type} {atNs : ℕ} (op : Body → Except String (Attempt α))
    {sql : Sql} {p : Producer} (hp : p.ledger = (s.producer.ledger.perform atNs op sql).1)
    (hmove : ∀ b new c r, op b = .ok ⟨some new, r⟩ → prepare (some b) new atNs = .ok c →
      b.Moves c ∧ c.handoff.ackedBuckets = b.handoff.ackedBuckets)
    (hdraft : ∀ raw ∈ p.draft, ∃ c, p.ledger.row = some c ∧
      raw = (c.envelope c.handoff.published).text) : (s.withProducer p).Agrees := by
  obtain ⟨b, hb, hserves⟩ := h.row
  obtain ⟨hsync, hrow⟩ := Ledger.perform_row h.synced atNs op sql
  rw [← hp] at hsync hrow
  refine h.withProducer hsync (hrow.imp id ?_) hdraft
  rintro ⟨b', new, c, r, hb', hop, hc, hrow'⟩
  obtain rfl : b' = b := Option.some.inj (hb'.symm.trans hb)
  obtain ⟨hm, hacked⟩ := hmove b' new c r hop hc
  exact ⟨b', c, hb, hrow', hm, (prepare_ok hc).2, by
    rw [hacked, ← hserves.receipts]; exact h.reached⟩

/-- A body stored with the same record. -/
theorem acked_of_same {b new c : Body} {atNs : ℕ} (hnew : new.handoff = b.handoff)
    (hc : prepare (some b) new atNs = .ok c) :
    b.Moves c ∧ c.handoff.ackedBuckets = b.handoff.ackedBuckets := by
  refine ⟨moves_of_same hnew hc, ?_⟩
  obtain ⟨⟨active, rfl⟩, -⟩ := prepare_ok hc
  simp only [hnew]

theorem publish (h : s.Agrees) (atNs : ℕ) (sql : Sql) :
    (s.withProducer (s.producer.publish atNs sql).1).Agrees := by
  have hmove : ∀ (b new c : Body) (r : Option Packet), b.publish atNs = .ok ⟨some new, r⟩ →
      Mqtt.prepare (some b) new atNs = .ok c →
      b.Moves c ∧ c.handoff.ackedBuckets = b.handoff.ackedBuckets := by
    intro b new c r hop hc
    refine ⟨(moves_of_publish hop hc).1, ?_⟩
    obtain ⟨⟨active, rfl⟩, -⟩ := prepare_ok hc
    rcases Body.publish_cases hop with ⟨h0, -⟩ | ⟨_, p, hs, -, -, -, -, hnew⟩
    · cases h0
    · cases hs; simp only [hnew]
  have hledger : (s.producer.publish atNs sql).1.ledger = (s.producer.ledger.publish atNs sql).1 := by
    unfold Producer.publish
    split
    · rename_i heq; rw [heq]
    · rename_i heq
      split
      · rw [heq]
      · split_ifs <;> rw [heq]
  refine h.perform (fun b => b.publish atNs) hledger hmove fun raw hraw => ?_
  -- a draft is the report of the row that the publication left
  unfold Producer.publish at hraw ⊢
  split at hraw
  · cases hraw
  rename_i l packet heq
  have hok : (s.producer.ledger.publish atNs sql).2 = .ok packet := by rw [heq]
  obtain ⟨b, hb, hcases⟩ := Ledger.perform_ok h.synced hok
  have hl : (s.producer.ledger.perform atNs (fun b => b.publish atNs) sql).1 = l := by
    show (s.producer.ledger.publish atNs sql).1 = l
    rw [heq]
  rw [hl] at hcases
  obtain ⟨c, hlc, hpacket⟩ : ∃ c, l = ⟨some c, none, some c, atNs⟩ ∧ packet = c.handoff.published := by
    rcases hcases with ⟨hop, hlb⟩ | ⟨new, c, hop, hc, hlc⟩
    · rcases Body.publish_cases hop with ⟨-, hr⟩ | ⟨new, p, hs, -⟩
      · exact ⟨b, hlb, hr⟩
      · cases hs
    · exact ⟨c, hlc, (moves_of_publish hop hc).2⟩
  rw [hlc] at hraw ⊢
  simp only at hraw ⊢
  split_ifs at hraw ⊢
  · cases hraw
    exact ⟨c, rfl, by rw [hpacket]⟩
  · cases hraw

/-- The acknowledgement of the consumer is known to the producer: of a packet that was settled, or
    of the published one. -/
theorem known (h : s.Agrees) {a : Ack} (ha : s.files.ack = some a) {b : Body}
    (hb : s.producer.ledger.row = some b) :
    (∃ r ∈ b.handoff.lastAck, a.bucketId < r.bucketId ∨
        a.bucketId = r.bucketId ∧ a.sha256 = r.sha256) ∨
      (∀ r ∈ b.handoff.lastAck, r.bucketId < a.bucketId) ∧
        ∃ p ∈ b.handoff.published, a.bucketId = p.body.bucketId ∧ a.sha256 = p.sha256 := by
  obtain ⟨b', hb', hs⟩ := h.row
  obtain rfl : b' = b := Option.some.inj (hb'.symm.trans hb)
  obtain ⟨-, n, q, hid, hq, hsha⟩ := h.ack a ha
  have hreceipts := hs.receipts
  rcases Nat.lt_or_ge n b'.handoff.ackedBuckets with hlt | hge
  · -- a settled packet: the last receipt is its own or a later one's
    left
    obtain ⟨r, hr⟩ : ∃ r, b'.handoff.lastAck = some r := by
      refine Option.ne_none_iff_exists'.1 fun hn => ?_
      have := hs.valid.noAck hn
      omega
    obtain ⟨-, hrid⟩ := hs.valid.lastAck r hr
    refine ⟨r, hr, ?_⟩
    rcases Nat.lt_or_ge (n + 1) b'.handoff.ackedBuckets with hlt' | hge'
    · left; omega
    · right
      refine ⟨by omega, ?_⟩
      have hget : s.receipts[n]? = some r := by
        rw [← hr, hs.lastAck, List.getLast?_eq_getElem?]
        congr 1; omega
      obtain ⟨-, p, atNs, domain, hp, rfl⟩ := h.past.receipt n r hget
      rw [hsha, Option.some.inj (hq.symm.trans hp)]
      rfl
  · -- the packet that is published
    right
    have hn := (List.getElem?_eq_some_iff.1 hq).1
    have hpackets := hs.packets
    obtain ⟨p, hp⟩ : ∃ p, b'.handoff.published = some p := by
      cases hp : b'.handoff.published with
      | none => rw [hp] at hpackets; simp at hpackets; omega
      | some p => exact ⟨p, rfl⟩
    have hn' : n = b'.handoff.ackedBuckets := by
      rw [hp] at hpackets; simp at hpackets; omega
    have hget := hs.published p hp
    rw [← hn'] at hget
    obtain rfl : p = q := Option.some.inj (hget.symm.trans hq)
    refine ⟨fun r hr => ?_, p, hp, ?_, hsha⟩
    · rw [(hs.valid.lastAck r hr).2]; omega
    · rw [hid, (h.past.packet n p hq).2.1]

/-- What the ledger does with the acknowledgement of the consumer. -/
theorem acknowledged (h : s.Agrees) {a : Ack} (ha : s.files.ack = some a) {b : Body}
    (hb : s.producer.ledger.row = some b) {atNs : ℕ} {o : Option Body} {status : AckStatus}
    (hop : b.acknowledge (readAck a.json.canonical) atNs = .ok ⟨o, status⟩) :
    status ≠ .rejected ∧ ∀ new ∈ o, ∃ p, b.handoff.published = some p ∧
      a.bucketId = p.body.bucketId ∧
      new = { b with handoff := b.handoff.settle p atNs b.clockDomainId } := by
  obtain ⟨-, n, q, hid, hq, -⟩ := h.ack a ha
  have hwidth : a.bucketId < 2 ^ 64 := by
    rw [hid]
    exact h.past.width (List.getElem?_eq_some_iff.1 hq).1
  obtain ⟨hread, hack⟩ := readAck_json hwidth
  rw [hread] at hop
  have hat : atNs < 2 ^ 64 := by
    by_contra hno
    rw [Body.acknowledge, Handoff.acknowledge, if_neg hno] at hop
    cases hop
  rcases Handoff.acknowledge_known b.clockDomainId hack hat (h.known ha hb) with
    ⟨status', hne, hrun⟩ | ⟨p, hp, hpid, hrun⟩
  · simp only [Body.acknowledge, hrun] at hop
    cases hop
    exact ⟨hne, by rintro new ⟨⟩⟩
  · simp only [Body.acknowledge, hrun, if_true] at hop
    cases hop
    refine ⟨by decide, ?_⟩
    rintro new ⟨⟩
    exact ⟨p, hp, hpid, rfl⟩

theorem pollAck (h : s.Agrees) (atNs : ℕ) (sql : Sql) :
    (s.withProducer (s.producer.pollAck s.ackFile atNs sql).1).Agrees := by
  have hidle : (s.withProducer { s.producer with draft := none }).Agrees :=
    h.withProducer h.synced (Or.inl rfl) (by rintro raw ⟨⟩)
  unfold Producer.pollAck
  cases hack : s.files.ack with
  | none =>
    simp only [System.ackFile, hack, Option.map_none]
    exact hidle
  | some a =>
    simp only [System.ackFile, hack, Option.map_some]
    split_ifs
    · exact hidle
    -- the ledger keeps its row or settles the packet that the consumer has counted
    obtain ⟨b, hb, hserves⟩ := h.row
    obtain ⟨hsync, hrow⟩ := Ledger.perform_row h.synced atNs
      (fun b => b.acknowledge (readAck a.json.canonical) atNs) sql
    have hledger : ∀ p : Producer, p.ledger =
        (s.producer.ledger.acknowledge (readAck a.json.canonical) atNs sql).1 → p.draft = none →
        (s.withProducer p).Agrees := by
      intro p hp hdraft
      have hp' : p.ledger = (s.producer.ledger.perform atNs
          (fun b => b.acknowledge (readAck a.json.canonical) atNs) sql).1 := hp
      rw [← hp'] at hsync hrow
      refine h.withProducer hsync (hrow.imp id ?_) (by rw [hdraft]; rintro raw ⟨⟩)
      rintro ⟨b', new, c, r, hb', hop, hc, hrow'⟩
      obtain rfl : b' = b := Option.some.inj (hb'.symm.trans hb)
      obtain ⟨q, hq, hqid, rfl⟩ := (h.acknowledged hack hb hop).2 new rfl
      obtain ⟨⟨active, rfl⟩, hv⟩ := prepare_ok hc
      refine ⟨b', _, hb, hrow', .settled q atNs b'.clockDomainId _ active hq rfl, hv, ?_⟩
      have hid := (h.past.packet _ q (hserves.published q hq)).2.1
      have hle := (h.ack a hack).1
      show b'.handoff.ackedBuckets + 1 ≤ _
      omega
    split
    · rename_i heq
      exact hledger _ (by rw [heq]) rfl
    · rename_i heq
      exact hledger _ (by rw [heq]) rfl

/-- **No acknowledgement of the consumer is rejected.** -/
theorem pollAck_ne (h : s.Agrees) (atNs : ℕ) (sql : Sql) :
    (s.producer.pollAck s.ackFile atNs sql).2 ≠ .ok (.acknowledged .rejected) := by
  intro hpoll
  unfold Producer.pollAck at hpoll
  cases hack : s.files.ack with
  | none => simp [System.ackFile, hack] at hpoll
  | some a =>
    simp only [System.ackFile, hack, Option.map_some] at hpoll
    split_ifs at hpoll
    · cases hpoll
    split at hpoll
    · cases hpoll
    · rename_i l status heq
      cases hpoll
      have hok : (s.producer.ledger.perform atNs
          (fun b => b.acknowledge (readAck a.json.canonical) atNs) sql).2 = .ok .rejected := by
        show (s.producer.ledger.acknowledge (readAck a.json.canonical) atNs sql).2 = _
        rw [heq]
      obtain ⟨b, hb, ⟨hop, -⟩ | ⟨new, c, hop, -, -⟩⟩ := Ledger.perform_ok h.synced hok
      · exact (h.acknowledged hack hb hop).1 rfl
      · exact (h.acknowledged hack hb hop).1 rfl

theorem producer (h : s.Agrees) (sql : Sql) (op : ProducerOp) :
    (s.withProducer (s.producer.step s.ackFile sql op)).Agrees := by
  cases op with
  | frame packet arrivedNs verified =>
    refine h.perform (fun b => b.frame packet arrivedNs verified) rfl ?_ (by rintro raw ⟨⟩)
    intro b new c r hop hc
    exact acked_of_same (Body.frame_handoff hop) hc
  | recordFault kind arrivedNs =>
    refine h.perform (fun b => b.recordFault kind arrivedNs) rfl ?_ (by rintro raw ⟨⟩)
    intro b new c r hop hc
    exact acked_of_same (Body.recordFault_handoff hop) hc
  | publish atNs => exact h.publish atNs sql
  | pollAck atNs => exact h.pollAck atNs sql
  | reopen domain startedNs =>
    obtain ⟨b, hb, hserves⟩ := h.row
    obtain ⟨hsync, hrow⟩ := s.producer.ledger.reopen_row domain startedNs sql
    refine h.withProducer hsync (hrow.imp id ?_) (by rintro raw ⟨⟩)
    rintro ⟨b', c, hb', hc, hrow'⟩
    obtain rfl : b' = b := Option.some.inj (hb'.symm.trans hb)
    obtain ⟨hm, hacked⟩ := acked_of_same (Body.session_handoff b' domain startedNs) hc
    exact ⟨b', c, hb, hrow', hm, (prepare_ok hc).2, by
      rw [hacked, ← hserves.receipts]; exact h.reached⟩

/-- The drafted report replaces the one before. -/
theorem replaceReport (h : s.Agrees) {raw : List Char} (hraw : s.producer.draft = some raw) :
    System.Agrees { s with report := some raw, producer := { s.producer with draft := none } } := by
  obtain ⟨e, he, hr, hstage⟩ := h.draft raw hraw
  refine ⟨h.past, h.row, h.synced, by rintro raw ⟨⟩, ?_, nofun, h.plan, h.state, h.counted,
    h.reached, h.ack⟩
  rintro raw' ⟨⟩
  refine ⟨e, he, hr, ?_, fun plan hp => ?_⟩
  · rw [hstage]; exact h.counted.stage_le
  · rw [hstage]; exact (h.plan plan hp).1.stage_le h.past

/-! ### Steps of the consumer -/

/-- The consumer's files after a write that replaces the state by one that has come further. -/
theorem withState (h : s.Agrees) {c : ConsumerState} (hc : c.Valid)
    (hcounted : Counted s.packets s.receipts c) (hle : s.consumer.lastPacket ≤ c.lastPacket)
    (hreport : ∃ raw e, s.report = some raw ∧ raw = e.text ∧ Reports s.packets s.receipts e ∧
      c.stage ≤ e.stage ∧ ∀ plan ∈ s.files.prepared, plan.report.stage ≤ e.stage) :
    System.Agrees { s with files := s.files.write (.state c) } := by
  obtain ⟨raw, e, hraw, he, hr, hst, hplans⟩ := hreport
  refine ⟨h.past, h.row, h.synced, h.draft, fun raw' hraw' => ?_, fun hn => ?_, h.plan, ?_, hcounted,
    h.reached.trans hle, fun a ha => ?_⟩
  · obtain rfl : raw' = raw := Option.some.inj (hraw'.symm.trans hraw)
    exact ⟨e, he, hr, hst, hplans⟩
  · rw [hraw] at hn; cases hn
  · rintro c' ⟨⟩; exact hc
  · obtain ⟨hid, hrest⟩ := h.ack a ha
    exact ⟨hid.trans hle, hrest⟩

/-- The stage of the report that is there. -/
theorem reported (h : s.Agrees) (hsome : s.files.prepared.isSome ∨ s.files.state.isSome) :
    ∃ raw e, s.report = some raw ∧ raw = e.text ∧ Reports s.packets s.receipts e ∧
      s.consumer.stage ≤ e.stage ∧ ∀ plan ∈ s.files.prepared, plan.report.stage ≤ e.stage := by
  cases hraw : s.report with
  | none =>
    obtain ⟨h1, h2⟩ := h.noReport hraw
    simp [h1, h2] at hsome
  | some raw =>
    obtain ⟨e, he⟩ := h.report raw hraw
    exact ⟨raw, e, rfl, he⟩

/-- `prepare` on the report that is there. -/
theorem prepare (h : s.Agrees) {ws : List Write} {out : Prepared} {files : Files}
    (hok : s.files.prepare s.report = .ok (ws, out))
    (hcut : Interrupted Files.write ws s.files files) :
    System.Agrees { s with files := files } := by
  simp only [Files.prepare, bind_ok, orFail_eq_ok, need_eq_ok, exists_unit, pure_ok,
    Files.readState_ok, Prod.mk.injEq] at hok
  obtain ⟨old, ⟨rfl, -⟩, raw, hraw, e, hdec, o, ho, -, rfl, -⟩ := hok
  obtain ⟨e', rfl, hr, hst, hplans⟩ := h.report raw hraw
  obtain rfl : e' = e := Option.some.inj ((decodeEnvelope_text hr.valid).symm.trans hdec)
  rcases interrupted_cons.1 hcut with rfl | hcut
  · exact h
  rw [interrupted_nil.1 hcut]
  refine ⟨h.past, h.row, h.synced, h.draft, fun raw' hraw' => ?_, fun hn => ?_, ?_, h.state, h.counted,
    h.reached, h.ack⟩
  · obtain rfl : raw' = e'.text := Option.some.inj (hraw'.symm.trans hraw)
    refine ⟨e', rfl, hr, hst, ?_⟩
    rintro plan ⟨⟩; exact le_rfl
  · rw [show s.report = none from hn] at hraw; cases hraw
  · rintro plan ⟨⟩; exact ⟨hr, s.files.state, o, rfl, ho⟩

/-- A commit moves the consumer to the report of its plan, and acknowledges the packet in it. -/
theorem commit (h : s.Agrees) {proposal : String} {checkpoint : Option Json} {plan : Plan}
    {result : Outcome} {c : ConsumerState} (hc : s.files.Commits proposal checkpoint plan result c)
    {files : Files} (hcut : Interrupted Files.write
      (.state c :: (result.ack.map Write.ack).toList) s.files files) :
    System.Agrees { s with files := files } := by
  obtain ⟨hr, -⟩ := h.plan plan hc.prepared
  obtain ⟨e, middle, ht⟩ := transition_ok.1 hc.transition
  obtain rfl : e = plan.report := Option.some.inj (ht.decoded.symm.trans (decodeEnvelope_text hr.valid))
  obtain ⟨hcounted, hack, hstage⟩ := ht.counted hr h.counted
  obtain ⟨hsame, hstored, -⟩ := hc.state
  have hcounted' : Counted s.packets s.receipts c := by
    rw [hsame]
    exact ⟨hcounted.packets, hcounted.receipts, hcounted.pending, hcounted.between,
      hcounted.packetSha, hcounted.receiptSha, hcounted.received, hcounted.acked⟩
  have hpacket : c.lastPacket = result.state.lastPacket := by rw [hsame]
  have hreceipt : c.lastReceipt = result.state.lastReceipt := by rw [hsame]
  have hstate : System.Agrees { s with files := s.files.write (.state c) } := by
    refine h.withState hstored.1 hcounted' ?_ ?_
    · rw [hpacket]; exact ht.grows.lastPacket
    · obtain ⟨raw, e, hraw, he, hre, -, hplans⟩ := h.reported (Or.inl (by rw [hc.prepared]; rfl))
      refine ⟨raw, e, hraw, he, hre, ?_, hplans⟩
      refine le_trans (le_of_eq ?_) (hplans plan hc.prepared)
      rw [← hstage, ConsumerState.stage, ConsumerState.stage, hpacket, hreceipt]
  rcases interrupted_cons.1 hcut with rfl | hcut
  · exact h
  cases hpend : result.state.pending with
  | none =>
    rw [ht.ack, hpend] at hcut
    rw [interrupted_nil.1 hcut]
    exact hstate
  | some p =>
    rw [ht.ack, hpend] at hcut
    rcases interrupted_cons.1 hcut with rfl | hcut
    · exact hstate
    rw [interrupted_nil.1 hcut]
    refine ⟨hstate.past, hstate.row, hstate.synced, hstate.draft, hstate.report, hstate.noReport,
      hstate.plan, hstate.state, hstate.counted, hstate.reached, ?_⟩
    rintro a ⟨⟩
    have hget := hcounted.pending p hpend
    have hid := (h.past.packet _ p hget).2.1
    have hbetween := hcounted.between
    rw [hpend] at hbetween
    refine ⟨?_, _, p, hid, hget, rfl⟩
    show p.body.bucketId ≤ c.lastPacket
    rw [hid, hpacket, hbetween]
    exact le_rfl

/-- A commit of the checkpoint alone keeps the accounts. -/
theorem commitCheckpoint (h : s.Agrees) {proposal : String} {checkpoint : Option Json}
    {ws : List Write} {r : Committed} (hok : s.files.commitCheckpoint proposal checkpoint = .ok (ws, r))
    {files : Files} (hcut : Interrupted Files.write ws s.files files) :
    System.Agrees { s with files := files } := by
  rcases Files.commitCheckpoint_cases hok with ⟨rfl, -⟩ | ⟨c, cp, hc, rfl, -, hv, -⟩
  · rw [interrupted_nil.1 hcut]; exact h
  rcases interrupted_cons.1 hcut with rfl | hcut
  · exact h
  rw [interrupted_nil.1 hcut]
  have hcons : s.consumer = c := by rw [System.consumer, hc]; rfl
  have hcounted := h.counted
  rw [hcons] at hcounted
  refine h.withState hv ?_ (by rw [hcons]) ?_
  · exact ⟨hcounted.packets, hcounted.receipts, hcounted.pending, hcounted.between,
      hcounted.packetSha, hcounted.receiptSha, hcounted.received, hcounted.acked⟩
  · obtain ⟨raw, e, hraw, he, hre, hst, hplans⟩ := h.reported (Or.inr (by rw [hc]; rfl))
    rw [hcons] at hst
    exact ⟨raw, e, hraw, he, hre, hst, hplans⟩

omit [Sha256] in
theorem withIdentity [Sha256] (h : s.Agrees) (identity : ℕ) :
    System.Agrees { s with ackIdentity := identity } :=
  ⟨h.past, h.row, h.synced, h.draft, h.report, h.noReport, h.plan, h.state, h.counted, h.reached, h.ack⟩

/-- **Every step of either side keeps both in agreement.** -/
theorem step (h : s.Agrees) {s' : System} (hs : s.Step s') : s'.Agrees := by
  cases hs with
  | producer sql op => exact h.producer sql op
  | replaceReport raw hraw => exact h.replaceReport hraw
  | consumer op files identity hop hcut =>
    cases op with
    | prepare report =>
      rcases writes_of hcut with rfl | ⟨ws, r, hok, hcut⟩
      · exact h.withIdentity identity
      rw [hop report rfl] at hok
      exact (h.prepare hok hcut).withIdentity identity
    | commit proposal checkpoint =>
      rcases writes_of hcut with rfl | ⟨ws, r, hok, hcut⟩
      · exact h.withIdentity identity
      rcases Files.commit_cases hok with ⟨rfl, -⟩ | ⟨plan, result, c, hc, rfl, -⟩
      · rw [interrupted_nil.1 hcut]; exact h.withIdentity identity
      · exact (h.commit hc hcut).withIdentity identity
    | prepareCheckpoint =>
      rw [interrupted_nil.1 hcut]; exact h.withIdentity identity
    | commitCheckpoint proposal checkpoint =>
      rcases writes_of hcut with rfl | ⟨ws, r, hok, hcut⟩
      · exact h.withIdentity identity
      exact (h.commitCheckpoint hok hcut).withIdentity identity

end System.Agrees

/-! ## Runs -/

theorem agrees_start {s : System} (hs : handoffMachine.start s) : s.Agrees := by
  obtain ⟨domain, startedNs, startSession, first, second, identity, hrow, rfl⟩ := hs
  obtain ⟨hsync, hinit⟩ := Ledger.create_row domain startedNs startSession first second
  obtain ⟨b, hb⟩ := Option.isSome_iff_exists.1 hrow
  obtain ⟨⟨active, ha⟩, hv⟩ := hinit b hb
  have hpast : Past [] [] := ⟨⟨le_rfl, Nat.zero_le _⟩, nofun, nofun⟩
  refine ⟨hpast, ⟨b, hb, hv, ?_, ?_, ?_, ?_, ?_, ?_⟩, hsync, by rintro raw ⟨⟩, by rintro raw ⟨⟩,
    fun _ => ⟨rfl, rfl⟩, by rintro plan ⟨⟩, by rintro c ⟨⟩, counted_initial [] [], le_rfl,
    by rintro a ⟨⟩⟩ <;> rw [ha]
  · rfl
  · rfl
  · rfl
  · rfl
  · rintro p ⟨⟩
  · rfl

theorem handoffMachine_invariant : handoffMachine.Invariant System.Agrees :=
  ⟨fun _ hs => agrees_start hs, fun _ _ _ h hs => h.step hs⟩

end

section
variable [Sha256]

/-- A created ledger beside an empty consumer. -/
def System.created (domain : Hex 64) (startedNs identity : ℕ) : System :=
  ⟨⟨(Ledger.create domain startedNs true .committed .committed).1, none, none⟩, none, Files.empty,
    identity, [], []⟩

theorem System.reachable_created (domain : Hex 64) {startedNs : ℕ} (hat : startedNs < 2 ^ 64)
    (identity : ℕ) : handoffMachine.Reachable (System.created domain startedNs identity) := by
  refine .start ⟨domain, startedNs, true, .committed, .committed, identity, ?_, rfl⟩
  obtain ⟨b, hb, -⟩ := Ledger.create_committed domain hat
  rw [hb]; rfl

end

end SmartHome.Mqtt
