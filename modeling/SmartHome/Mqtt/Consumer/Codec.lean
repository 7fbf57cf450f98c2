/-
  What the producer writes, the consumer reads: the text of an envelope whose parts are valid
  is decoded to that envelope.
-/
import SmartHome.Mqtt.Capacity
import SmartHome.Mqtt.Consumer.Protocol

namespace SmartHome.Mqtt.Consumer

open Verif

/-! ## Values -/

theorem uint_num {bits m : ℕ} (hb : bits ≤ 128) (h : m < 2 ^ bits) : uint bits (num m) = some m := by
  have hm : m < 10 ^ (38 + 1) :=
    (h.trans_le (Nat.pow_le_pow_right (by norm_num) hb)).trans (by norm_num)
  simp [uint, num, decimal?_decimal hm, h]

/-- The members of an object with the right keys. -/
theorem closed_obj {kvs : List (String × Json)} {keys : List String}
    (h : (kvs.map Prod.fst).Perm keys) :
    closed keys (.obj kvs) = some fun k => ((Json.obj kvs).get? k).getD .null := by
  have hk : ∃ ks ∈ (Json.obj kvs).keys, ks.Perm keys := ⟨_, rfl, h⟩
  rw [closed, if_pos hk]

section
variable {α : Type} {p : Prop} [Decidable p] {f : Json → Option α} {j : Json}

theorem onlyIf_pos (h : p) {a : α} (ha : f j = some a) : onlyIf p f j = some (some a) := by
  rw [onlyIf, if_pos h, ha]; rfl

theorem onlyIf_neg (h : ¬ p) : onlyIf p f .null = some none := by
  rw [onlyIf, if_neg h, if_pos rfl]

/-- A value that is there exactly if the condition holds. -/
theorem onlyIf_of {o : Option α} (h : o.isSome ↔ p) (hj : ∀ a ∈ o, f j = some a)
    (hn : o = none → j = .null) : onlyIf p f j = some o := by
  cases o with
  | none => rw [hn rfl, onlyIf_neg (by simpa using h)]
  | some a => exact onlyIf_pos (h.1 rfl) (hj a rfl)

end

theorem timestamp_json {o : Option ℕ} (h : ∀ v ∈ o, v < 2 ^ 64) :
    timestamp (optJson num o) = some o := by
  refine onlyIf_of ?_ ?_ ?_
  · cases o <;> simp [optJson, num]
  · rintro v ⟨⟩; exact uint_num (by norm_num) (h v rfl)
  · rintro rfl; rfl

/-! ## Tables -/

theorem kindTable_json {α : Type} {f : Json → Option α} {g : Kind → Json} {h : Kind → α}
    (hg : ∀ k, f (g k) = some (h k)) : kindTable f (kindJson g) = some h := by
  have hm : ∀ k : Kind, ((kindJson g).get? k.name).getD .null = g k := by
    intro k; cases k <;> rfl
  rw [kindTable, kindJson, closed_obj (by simp only [List.map_cons, List.map_nil]; decide), ← kindJson]
  simp only [bind_some, Option.some.injEq, exists_eq_left', collect_eq_some, hm]
  exact hg

theorem columnTable_json {t : Column → ℕ} (ht : ∀ c, t c < 2 ^ 128) :
    columnTable (columnJson num t) = some t := by
  have hm : ∀ c : Column, ((columnJson num t).get? c.name).getD .null = num (t c) := by
    intro c; cases c <;> rfl
  rw [columnTable, columnJson, closed_obj (by simp only [List.map_cons, List.map_nil]; decide), ← columnJson]
  simp only [bind_some, Option.some.injEq, exists_eq_left', collect_eq_some, hm]
  exact fun c => uint_num le_rfl (ht c)

theorem faultTable_json {t : Fault → ℕ} (ht : ∀ f, t f < 2 ^ 128) :
    faultTable (faultJson num t) = some t := by
  have hm : ∀ f : Fault, ((faultJson num t).get? f.name).getD .null = num (t f) := by
    intro f; cases f <;> rfl
  rw [faultTable, faultJson, closed_obj (by simp only [List.map_cons, List.map_nil]; decide), ← faultJson]
  simp only [bind_some, Option.some.injEq, exists_eq_left', collect_eq_some, hm]
  exact fun f => uint_num le_rfl (ht f)

theorem counts_json {t : Totals} (ht : t.Valid) : counts (t.json num) = some t := by
  have htotals : totalsOf (fun x => t (.header x)) (fun f => t (.fault f))
      (fun k c => t (.stat k c)) = t := by
    funext c; cases c <;> rfl
  have hm : ∀ x : Header, ((t.json num).get? x.name).getD .null = num (t (.header x)) := by
    intro x; cases x <;> rfl
  rw [counts, Totals.json, closed_obj (by simp only [List.map_cons, List.map_nil]; decide), ← Totals.json]
  simp only [bind_some, Option.some.injEq, exists_eq_left', guard_some, exists_unit, pure_some,
    collect_eq_some, hm]
  refine ⟨fun x => t (.header x), fun x => uint_num le_rfl (ht.1 _), fun f => t (.fault f),
    ?_, fun k c => t (.stat k c), ?_, ?_, htotals⟩
  · show faultTable (faultJson num fun f => t (.fault f)) = _
    exact faultTable_json fun f => ht.1 _
  · show kindTable columnTable (kindJson fun k => columnJson num fun c => t (.stat k c)) = _
    exact kindTable_json fun k => columnTable_json fun c => ht.1 _
  · rw [htotals]; exact ht.2

/-! ## Records -/

theorem aggregate_json {b : Bucket} (h : b.Valid) (hne : b.counts ≠ 0) :
    aggregate (b.json num) = some b := by
  obtain ⟨hdomain, hcounts, hreaders, holdest, hmax, hordered⟩ := h
  rw [if_neg hne] at hreaders
  obtain ⟨first, hfirst, last, hlast, hf, hl, hle⟩ := hreaders
  have htimes : ∀ {f : Kind → Option ℕ}, (∀ k, (b.counts (.stat k .timed) = 0 ∧ f k = none) ∨
      (0 < b.counts (.stat k .timed) ∧ ∃ v ∈ f k, v < 2 ^ 64)) →
      kindTable timestamp (kindJson fun k => optJson num (f k)) = some f ∧
        ∀ k, (f k).isSome ↔ 0 < b.counts (.stat k .timed) := by
    intro f hf
    refine ⟨kindTable_json fun k => timestamp_json ?_, fun k => ?_⟩
    · rcases hf k with ⟨-, h0⟩ | ⟨-, v, hv, hlt⟩
      · rw [h0]; rintro v ⟨⟩
      · rw [hv]; rintro w ⟨⟩; exact hlt
    · rcases hf k with ⟨h0, hn⟩ | ⟨h0, v, hv, -⟩
      · simp [h0, hn]
      · simp [h0, Option.mem_def.1 hv]
  rw [aggregate, Bucket.json, closed_obj (by simp only [List.map_cons, List.map_nil]; decide)]
  simp only [bind_some, Option.some.injEq, exists_eq_left', guard_some, exists_unit, pure_some]
  refine ⟨b.clockDomainConflict, rfl, b.clockDomainId, onlyIf_of ?_ ?_ ?_, b.counts,
    counts_json hcounts, hne, first, ?_, last, ?_, hle, b.oldestSourceNs, (htimes holdest).1,
    (htimes holdest).2, b.maxSocketNs, (htimes hmax).1, (htimes hmax).2, fun hc k v hv => ?_, ?_⟩
  · cases hc : b.clockDomainConflict <;> simp_all
  · rintro d hd
    show hex? 64 (optHexJson b.clockDomainId) = some d
    rw [Option.mem_def.1 hd]; exact hex?_str d
  · intro hn
    show optHexJson b.clockDomainId = .null
    rw [hn]; rfl
  · show uint 64 (optJson num b.firstReaderNs) = some first
    rw [Option.mem_def.1 hfirst]; exact uint_num (by norm_num) hf
  · show uint 64 (optJson num b.lastReaderNs) = some last
    rw [Option.mem_def.1 hlast]; exact uint_num (by norm_num) hl
  · obtain ⟨l, hl', hvl⟩ := hordered hc k v hv
    rw [Option.mem_def.1 hlast] at hl'
    cases hl'; exact hvl
  · rw [← Option.mem_def.1 hfirst, ← Option.mem_def.1 hlast]

theorem ackRow_json {ordered : Bool} {r : AckRow} (ho : r.observed < 2 ^ 128)
    (ht : r.timed < 2 ^ 128) (hu : r.timingUnknown < 2 ^ 128)
    (hsum : r.observed = r.timed + r.timingUnknown)
    (hupper : (r.timed = 0 ∧ r.upperNs = none) ∨
      (0 < r.timed ∧ (∃ n ∈ r.upperNs, n < 2 ^ 64) ∧ ordered = true)) :
    ackRow ordered (r.json num) = some r := by
  rw [ackRow, AckRow.json, closed_obj (by simp only [List.map_cons, List.map_nil]; decide)]
  simp only [bind_some, Option.some.injEq, exists_eq_left', guard_some, exists_unit, pure_some]
  refine ⟨r.observed, uint_num le_rfl ho, r.timed, uint_num le_rfl ht, r.timingUnknown,
    uint_num le_rfl hu, hsum, ?_, r.upperNs, onlyIf_of ?_ ?_ ?_, rfl⟩
  · intro h0
    rcases hupper with ⟨h, -⟩ | ⟨-, -, h⟩
    · omega
    · exact h
  · rcases hupper with ⟨h0, hn⟩ | ⟨h0, ⟨n, hn, -⟩, -⟩
    · simp [h0, hn]
    · simp [h0, Option.mem_def.1 hn]
  · rintro n hn
    show uint 64 (optJson num r.upperNs) = some n
    rcases hupper with ⟨-, h⟩ | ⟨-, ⟨n', hn', hlt⟩, -⟩
    · rw [h] at hn; cases hn
    · rw [Option.mem_def.1 hn'] at hn ⊢
      cases hn; exact uint_num (by norm_num) hlt
  · intro hn
    show optJson num r.upperNs = .null
    rw [hn]; rfl

theorem receipt_json {r : Receipt} (h : r.Valid) : receipt (r.json num) = some r := by
  obtain ⟨hid, hat, hpub, hrows⟩ := h
  have hpublication : onlyIf (r.clockOrdered = true) (uint 64) (optJson num r.publicationToAckNs) =
      some r.publicationToAckNs := by
    cases hc : r.clockOrdered with
    | false =>
      rw [hc, if_neg (by simp)] at hpub
      rw [hpub]; exact onlyIf_neg (by simp)
    | true =>
      rw [hc, if_pos rfl] at hpub
      obtain ⟨n, hn, hlt⟩ := hpub
      rw [Option.mem_def.1 hn]; exact onlyIf_pos rfl (uint_num (by norm_num) hlt)
  have hack : kindTable (ackRow r.clockOrdered) (kindJson fun k => (r.sourceToAck k).json num) =
      some r.sourceToAck := by
    refine kindTable_json fun k => ?_
    obtain ⟨ho, ht, hu, hsum, hupper⟩ := hrows k
    exact ackRow_json ho ht hu hsum hupper
  rw [receipt, Receipt.json, closed_obj (by simp only [List.map_cons, List.map_nil]; decide), ← Receipt.json]
  simp only [bind_some, Option.some.injEq, exists_eq_left', guard_some, exists_unit, pure_some]
  exact ⟨r.bucketId, uint_num (by norm_num) hid.1, hid.2, r.sha256, hex?_str _, r.ackAtNs,
    uint_num (by norm_num) hat, r.ackClockDomainId, hex?_str _, r.clockOrdered, rfl,
    r.publicationToAckNs, hpublication, r.sourceToAck, hack, rfl⟩

/-! ## Texts -/

theorem neat_hex {m : ℕ} (h : Hex m) : (hexJson h).Neat := neat_hex_str h

theorem neat_opt (o : Option ℕ) : (optJson num o).Neat := by
  cases o with
  | none => exact Json.neat_null
  | some m => exact neat_num m

theorem neat_optHex {m : ℕ} (o : Option (Hex m)) : (optHexJson o).Neat := by
  cases o with
  | none => exact Json.neat_null
  | some h => exact neat_hex h

theorem neat_kinds {f : Kind → Json} (hf : ∀ k, (f k).Neat) : (kindJson f).Neat := by
  refine Json.neat_obj (by simp only [List.map_cons, List.map_nil]; decide)
    (by simp only [List.map_cons, List.map_nil]; decide) ?_
  simp [hf]

theorem neat_totals (t : Totals) : (t.json num).Neat := by
  have hcolumns : ∀ f : Column → ℕ, (columnJson num f).Neat := fun f =>
    Json.neat_obj (by simp only [List.map_cons, List.map_nil]; decide)
      (by simp only [List.map_cons, List.map_nil]; decide) (by simp [neat_num])
  have hfaults : ∀ f : Fault → ℕ, (faultJson num f).Neat := fun f =>
    Json.neat_obj (by simp only [List.map_cons, List.map_nil]; decide)
      (by simp only [List.map_cons, List.map_nil]; decide) (by simp [neat_num])
  refine Json.neat_obj (by simp only [List.map_cons, List.map_nil]; decide)
    (by simp only [List.map_cons, List.map_nil]; decide) ?_
  simp [neat_num, hfaults, neat_kinds, hcolumns]

theorem neat_bucket (b : Bucket) : (b.json num).Neat := by
  refine Json.neat_obj (by simp only [List.map_cons, List.map_nil]; decide)
    (by simp only [List.map_cons, List.map_nil]; decide) ?_
  simp [Json.neat_bool, neat_optHex, neat_totals, neat_opt, neat_kinds]

theorem neat_receipt (r : Receipt) : (r.json num).Neat := by
  have hrow : ∀ row : AckRow, (row.json num).Neat := fun row =>
    Json.neat_obj (by simp only [List.map_cons, List.map_nil]; decide)
      (by simp only [List.map_cons, List.map_nil]; decide) (by simp [neat_num, neat_opt])
  refine Json.neat_obj (by simp only [List.map_cons, List.map_nil]; decide)
    (by simp only [List.map_cons, List.map_nil]; decide) ?_
  simp [neat_num, neat_hex, Json.neat_bool, neat_opt, neat_kinds, hrow]

theorem neat_optReceipt (o : Option Receipt) : (optReceiptJson num o).Neat := by
  cases o with
  | none => exact Json.neat_null
  | some r => exact neat_receipt r

theorem neat_packetBody (v : PacketBody) : (v.json num).Neat := by
  refine Json.neat_obj (by simp only [List.map_cons, List.map_nil]; decide)
    (by simp only [List.map_cons, List.map_nil]; decide) ?_
  simp [neat_bucket, neat_num, neat_optReceipt, neat_hex]

theorem neat_int_one : (Json.int 1).Neat := ⟨by simp [Json.Sorted], by decide⟩

theorem neat_packet (p : Packet) : (packetJson p).Neat := by
  refine Json.neat_obj (by simp only [List.map_cons, List.map_nil]; decide)
    (by simp only [List.map_cons, List.map_nil]; decide) ?_
  simp [neat_packetBody, neat_hex, neat_int_one]

/-! ## Envelopes -/

section
variable [Sha256]

theorem neat_envelope (e : Envelope) : e.json.Neat := by
  have hpacket : (e.packet.elim .null packetJson).Neat := by
    cases e.packet with
    | none => exact Json.neat_null
    | some p => exact neat_packet p
  have hbody : e.bodyJson.Neat := by
    refine Json.neat_obj (by simp only [List.map_cons, List.map_nil]; decide)
      (by simp only [List.map_cons, List.map_nil]; decide) ?_
    simp [neat_num, neat_totals, neat_optReceipt, neat_hex, hpacket]
  refine Json.neat_obj (by simp only [List.map_cons, List.map_nil]; decide)
    (by simp only [List.map_cons, List.map_nil]; decide) ?_
  simp [hbody, neat_hex, neat_int_one]

/-- What the producer checks before it sends a packet. -/
structure Sendable (p : Packet) : Prop where
  bucketId : p.body.bucketId < 2 ^ 64
  publishedAtNs : p.body.publishedAtNs < 2 ^ 64
  aggregate : p.body.aggregate.Valid
  nonempty : p.body.aggregate.counts ≠ 0
  sha256 : p.body.digest = p.sha256

theorem packet_json {p : Packet} {last : Option Receipt} {acked : ℕ} (h : Sendable p)
    (hid : p.body.bucketId = acked + 1) (hlast : p.body.previousAck = last) :
    packet (packetJson p) (optReceiptJson num last) last acked = some p := by
  have hagg : aggregate (p.body.aggregate.json num) = some p.body.aggregate :=
    aggregate_json h.aggregate h.nonempty
  have hprev : (optReceiptJson num p.body.previousAck).canonical =
      (optReceiptJson num last).canonical := by rw [hlast]
  rw [packet, packetJson, closed_obj (by simp only [List.map_cons, List.map_nil]; decide), ← packetJson]
  simp only [bind_some, Option.some.injEq, exists_eq_left', guard_some, exists_unit, pure_some]
  refine ⟨rfl, p.sha256, hex?_str _, h.sha256, _,
    closed_obj (by simp only [List.map_cons, List.map_nil]; decide),
    p.body.bucketId, uint_num (by norm_num) h.bucketId, hid, p.body.publishedAtNs,
    uint_num (by norm_num) h.publishedAtNs, p.body.publisherClockDomainId, hex?_str _, hprev,
    p.body.aggregate, hagg, ?_⟩
  rw [← hlast]

/-- What the producer's checks say about the envelopes it writes. -/
structure Envelope.Valid (e : Envelope) : Prop where
  ackedBuckets : e.ackedBuckets < 2 ^ 64
  ackedCounts : e.ackedCounts.Valid
  lastAck : ∀ r ∈ e.lastAck, r.Valid ∧ r.bucketId = e.ackedBuckets
  noAck : e.lastAck = none → e.ackedBuckets = 0
  packet : ∀ p ∈ e.packet, Sendable p ∧ p.body.bucketId = e.ackedBuckets + 1 ∧
    p.body.previousAck = e.lastAck

/-- The text of a valid envelope fits the report. -/
theorem Envelope.Valid.capacity {e : Envelope} (h : e.Valid) : e.text.length ≤ reportLimit := by
  have hone : (Json.int 1).render.length = 1 := by decide
  have hlast : (optReceiptJson num e.lastAck).render.length ≤ 4000 :=
    length_optReceipt narrow_num fun r hr => (h.lastAck r hr).1
  have hpacket : (e.packet.elim .null packetJson).render.length ≤ 14000 := by
    cases hp : e.packet with
    | none => simp [Json.render]
    | some p =>
      obtain ⟨hs, -, hprev⟩ := h.packet p hp
      have hbody := length_packetBody narrow_num (v := p.body) hs.bucketId hs.aggregate hs.publishedAtNs
        (by rw [hprev]; exact fun r hr => (h.lastAck r hr).1)
      have hsha := length_hex p.sha256
      refine (Json.length_obj_le _).trans ?_
      simp [Json.memberLen, Json.quote, Json.escape, hone]
      omega
  have hcounts := length_totals narrow_num h.ackedCounts.1
  have hacked := narrow_num e.ackedBuckets (h.ackedBuckets.trans (by norm_num))
  have hdomain := length_hex e.sourceClockDomainId
  have hbody : e.bodyJson.render.length ≤ 30000 := by
    refine (Json.length_obj_le _).trans ?_
    simp [Json.memberLen, Json.quote, Json.escape]
    omega
  have hsha := length_hex (digest e.bodyJson)
  rw [Envelope.text, Json.length_canonical]
  refine (Json.length_obj_le _).trans ?_
  simp [Json.memberLen, Json.quote, Json.escape, hone, reportLimit]
  omega

theorem envelopeBody_bodyJson {e : Envelope} (h : e.Valid) : envelopeBody e.bodyJson = some e := by
  have hlast : lastReceipt e.ackedBuckets (optReceiptJson num e.lastAck) = some e.lastAck := by
    simp only [lastReceipt, bind_some, guard_some, exists_unit, pure_some]
    refine ⟨e.lastAck, ?_, ⟨h.noAck, fun r hr => (h.lastAck r hr).2⟩, rfl⟩
    refine onlyIf_of ?_ ?_ ?_
    · cases e.lastAck <;> simp [optReceiptJson, Receipt.json]
    · intro r hr
      rw [Option.mem_def.1 hr]; exact receipt_json (h.lastAck r hr).1
    · intro hn
      rw [hn]; rfl
  have hpacket : onlyIf (e.packet.elim Json.null packetJson ≠ .null)
      (Consumer.packet · (optReceiptJson num e.lastAck) e.lastAck e.ackedBuckets)
      (e.packet.elim .null packetJson) = some e.packet := by
    refine onlyIf_of ?_ ?_ ?_
    · cases e.packet <;> simp [packetJson]
    · intro p hp
      rw [Option.mem_def.1 hp]
      obtain ⟨hs, hid, hprev⟩ := h.packet p hp
      exact packet_json hs hid hprev
    · intro hn
      rw [hn]; rfl
  rw [envelopeBody, Envelope.bodyJson,
    closed_obj (by simp only [List.map_cons, List.map_nil]; decide), ← Envelope.bodyJson]
  simp only [bind_some, Option.some.injEq, exists_eq_left', pure_some]
  exact ⟨e.sourceClockDomainId, hex?_str _, e.ackedCounts, counts_json h.ackedCounts,
    e.ackedBuckets, uint_num (by norm_num) h.ackedBuckets, e.lastAck, hlast, e.packet, hpacket, rfl⟩

/-- **What the producer writes, the consumer reads.** -/
theorem decodeEnvelope_text {e : Envelope} (h : e.Valid) : decodeEnvelope e.text = some e := by
  obtain ⟨hascii, hparse⟩ := (neat_envelope e).canonical
  have hvalue : envelopeValue e.json = some e := by
    rw [envelopeValue, Envelope.json,
      closed_obj (by simp only [List.map_cons, List.map_nil]; decide), ← Envelope.json]
    simp only [bind_some, Option.some.injEq, exists_eq_left', guard_some, exists_unit]
    exact ⟨rfl, digest e.bodyJson, hex?_str _, rfl, envelopeBody_bodyJson h⟩
  simp only [decodeEnvelope, bind_some, guard_some, exists_unit]
  refine ⟨⟨h.capacity, ?_⟩, e.json, hparse, rfl, hvalue⟩
  exact List.all_eq_true.2 fun c hc => decide_eq_true (hascii c hc)

end
end SmartHome.Mqtt.Consumer
