/-
  No event of the registry is lost or stored twice: what was accepted is in one of the two tables.
-/
import SmartHome.NativeEvents.Guarantees

namespace SmartHome.NativeEvents

open Verif Program

/-- Any clock, also one that goes back. -/
def anyClock (_ _ : ℚ) : Prop := True

instance : IsTrans ℚ anyClock := ⟨fun _ _ _ _ _ => trivial⟩

instance : Std.Refl anyClock := ⟨fun _ => trivial⟩

/-! ## The invariant -/

/-- The tables hold what was accepted, each id once, within their bounds. -/
structure State.Conserved (s : State) : Prop where
  ids : s.record.accepted.Perm s.db.eventIds
  once : s.record.accepted.Nodup
  events : s.db.events.length ≤ 256
  archive : s.db.archive.length ≤ 4096

theorem Db.mem_eventIds_of_data {db : Db} {id : String} (h : db.data? id = none) :
    id ∉ db.eventIds := by
  simp only [Db.data?, Option.map_eq_none_iff, Option.orElse_eq_orElse, Option.orElse_eq_or,
    Option.or_eq_none_iff, lookup_eq_none] at h
  simp only [Db.eventIds, List.mem_append, List.mem_map, not_or, not_exists, not_and]
  exact ⟨h.1, h.2⟩

/-- Retired rows move from one table to the other. -/
theorem retired_perm {rows events : List Event} (p : Event → Bool) (hrows : rows = events.filter p)
    (hnodup : (events.map Event.id).Nodup) :
    ((without rows events).map Event.id ++ rows.map Event.id).Perm (events.map Event.id) := by
  have hkept : without rows events = events.filter fun e => !p e := by
    refine List.filter_congr fun e he => ?_
    rw [hrows]
    cases hp : p e with
    | true =>
      rw [Bool.not_true, decide_eq_false_iff_not]
      exact fun hall => hall e (List.mem_filter.2 ⟨he, hp⟩) rfl
    | false =>
      rw [Bool.not_false, decide_eq_true_iff]
      intro r hr hid
      obtain ⟨hr, hpr⟩ := List.mem_filter.1 hr
      rw [eq_of_key_eq hnodup he hr hid, hpr] at hp
      cases hp
  rw [hkept, hrows, ← List.map_append]
  exact (List.perm_append_comm.trans (List.filter_append_perm p events)).map _

theorem conserved_fresh {s : State} (h : s.Fresh) : s.Conserved := by
  obtain ⟨hdb, hrecord⟩ := h
  constructor
  · rw [hdb, hrecord]; exact List.Perm.nil
  · rw [hrecord]; exact List.nodup_nil
  · rw [hdb]; exact Nat.zero_le _
  · rw [hdb]; exact Nat.zero_le _

theorem Surrounding.conserved {clockOk : ℚ → ℚ → Prop} {s s' : State} (h : s.Conserved) (hs : Surrounding clockOk s s') : s'.Conserved := by
  cases hs with
  | clock _ => exact ⟨h.ids, h.once, h.events, h.archive⟩
  | restart => exact ⟨h.ids, h.once, h.events, h.archive⟩
  | arm _ => exact ⟨h.ids, h.once, h.events, h.archive⟩

theorem Surrounding.accepted {clockOk : ℚ → ℚ → Prop} {s s' : State} (hs : Surrounding clockOk s s') :
    s'.record.accepted = s.record.accepted := by
  cases hs with
  | clock _ => rfl
  | restart => rfl
  | arm _ => rfl

section
variable [Texts] {principal : String} {clockOk : ℚ → ℚ → Prop} {s s' : State}

theorem Change.conserved (h : s.Conserved) (hc : Change principal clockOk s s') : s'.Conserved := by
  cases hc with
  | accept e hnew hroom =>
    have hnot : e.id ∉ s.record.accepted := fun hmem =>
      Db.mem_eventIds_of_data hnew (h.ids.mem_iff.1 hmem)
    refine ⟨?_, ?_, ?_, h.archive⟩
    · have hadd : (s.db.eventIds ++ [e.id]).Perm
          ((s.db.events ++ [e]).map Event.id ++ s.db.archive.map Archived.id) := by
        rw [Db.eventIds, List.map_append, List.append_assoc, List.append_assoc]
        exact List.perm_append_comm.append_left _
      exact (h.ids.append_right _).trans hadd
    · exact List.nodup_append.2 ⟨h.once, List.nodup_singleton _,
        fun a ha b hb hab => hnot (List.mem_singleton.1 hb ▸ hab ▸ ha)⟩
    · rw [List.length_append]
      exact hroom
  | @retire db t hdb =>
    obtain ⟨hroom, -, rfl⟩ := Db.retire_eq hdb
    have hnodup : (s.db.events.map Event.id).Nodup :=
      (List.nodup_append.1 (h.ids.nodup h.once)).1
    have hmoved := retired_perm (fun e => decide (s.db.retirable t e)) rfl hnodup
    refine ⟨?_, h.once, ?_, ?_⟩
    · refine h.ids.trans ?_
      have harchived : (s.db.archive ++ (s.db.retired t).map (archivedAs s.db.members t)).map
          Archived.id = s.db.archive.map Archived.id ++ (s.db.retired t).map Event.id := by
        rw [List.map_append, List.map_map]
        rfl
      show (s.db.events.map Event.id ++ s.db.archive.map Archived.id).Perm
        ((without (s.db.retired t) s.db.events).map Event.id ++ _)
      rw [harchived]
      refine (hmoved.symm.append_right _).trans ?_
      rw [List.append_assoc]
      exact List.perm_append_comm.append_left _
    · exact (List.length_filter_le _ _).trans h.events
    · rw [List.length_append, List.length_map]
      exact hroom
  | migrate _ _ _ _ _ hdb => obtain ⟨-, -, -, rfl⟩ := Db.migrate_eq hdb; exact ⟨h.ids, h.once, h.events, h.archive⟩
  | unsubscribe _ _ _ hdb => obtain ⟨_, rfl⟩ := Db.unsubscribe_eq hdb; exact ⟨h.ids, h.once, h.events, h.archive⟩
  | intend hi =>
    obtain ⟨_, _, _, -, -, -, hdb⟩ := hi
    obtain ⟨-, -, -, rfl⟩ := Db.intend_eq hdb
    exact ⟨h.ids, h.once, h.events, h.archive⟩
  | _ => exact ⟨h.ids, h.once, h.events, h.archive⟩

/-- What was accepted stays accepted, and an event that is new among the events was not. -/
theorem Change.accepted (h : s.Conserved) (hc : Change principal clockOk s s') :
    s.record.accepted <+: s'.record.accepted ∧
      ∀ e ∈ s'.db.events, e ∉ s.db.events → e.id ∉ s.record.accepted := by
  cases hc with
  | accept e hnew _ =>
    refine ⟨List.prefix_append _ _, fun e' he' hold hmem => ?_⟩
    obtain rfl := (mem_concat.1 he').resolve_left hold
    exact Db.mem_eventIds_of_data hnew (h.ids.mem_iff.1 hmem)
  | retire t hdb =>
    obtain ⟨-, -, rfl⟩ := Db.retire_eq hdb
    exact ⟨List.prefix_rfl, fun e he hold => absurd (List.mem_filter.1 he).1 hold⟩
  | migrate _ _ _ _ _ hdb =>
    obtain ⟨-, -, -, rfl⟩ := Db.migrate_eq hdb
    exact ⟨List.prefix_rfl, fun e he hold => absurd he hold⟩
  | unsubscribe _ _ _ hdb =>
    obtain ⟨_, rfl⟩ := Db.unsubscribe_eq hdb
    exact ⟨List.prefix_rfl, fun e he hold => absurd he hold⟩
  | intend hi =>
    obtain ⟨_, _, _, -, -, -, hdb⟩ := hi
    obtain ⟨-, -, -, rfl⟩ := Db.intend_eq hdb
    exact ⟨List.prefix_rfl, fun e he hold => absurd he hold⟩
  | _ => exact ⟨List.prefix_rfl, fun e he hold => absurd he hold⟩

variable {w w' : Desk State Reply Unit}

theorem conserved_reachable (hw : (registryMachine principal anyClock).Reachable w) :
    w.state.Conserved :=
  registry_invariant (fun _ => conserved_fresh) (fun _ _ => Change.conserved)
    (fun _ _ => Surrounding.conserved) hw

theorem accepted_step (hw : (registryMachine principal anyClock).Reachable w)
    (hs : (registryMachine principal anyClock).step w w') :
    w.state.record.accepted <+: w'.state.record.accepted ∧
      ∀ e ∈ w'.state.db.events, e ∉ w.state.db.events → e.id ∉ w.state.record.accepted := by
  rcases registry_step hw hs with hc | ho
  · exact hc.accepted (conserved_reachable hw)
  · rw [ho.accepted, Db.tables_events ho.tables]
    exact ⟨List.prefix_rfl, fun e he hold => absurd he hold⟩

/-- **Events are conserved.**  In every state that is reached the accepted ids are pairwise
    distinct and each is in exactly one of the two tables, which hold nothing else and stay within
    their bounds.  Later states forget no accepted id, and no step makes an event of one. -/
theorem events_conserved (hw : (registryMachine principal anyClock).Reachable w) :
    w.state.record.accepted.Nodup ∧
      (∀ id, id ∈ w.state.record.accepted ↔ w.state.db.eventIds.count id = 1) ∧
      (∀ id, id ∉ w.state.record.accepted → id ∉ w.state.db.eventIds) ∧
      w.state.db.events.length ≤ 256 ∧ w.state.db.archive.length ≤ 4096 ∧
      (∀ w', Relation.ReflTransGen (registryMachine principal anyClock).step w w' →
        w.state.record.accepted <+: w'.state.record.accepted) ∧
      ∀ w', (registryMachine principal anyClock).step w w' →
        ∀ e ∈ w'.state.db.events, e ∉ w.state.db.events → e.id ∉ w.state.record.accepted := by
  have h := conserved_reachable hw
  refine ⟨h.once, fun id => ?_, fun id hid hmem => hid (h.ids.mem_iff.2 hmem), h.events, h.archive,
    fun w' hrun => ?_, fun w' hs => (accepted_step hw hs).2⟩
  · rw [h.ids.mem_iff]
    constructor
    · exact fun hmem => List.count_eq_one_of_mem (h.ids.nodup h.once) hmem
    · intro hcount
      exact List.count_pos_iff.1 (by omega)
  · have hboth : (registryMachine principal anyClock).Reachable w' ∧
        w.state.record.accepted <+: w'.state.record.accepted := by
      induction hrun with
      | refl => exact ⟨hw, List.prefix_rfl⟩
      | tail _ hs ih => exact ⟨.step ih.1 hs, ih.2.trans (accepted_step ih.1 hs).1⟩
    exact hboth.2

end

/-! ## A run -/

/-- An object or a revision. -/
def sampleHex : String := "0000000000000000000000000000000000000000000000000000000000000000"

def sampleData : EventData :=
  ⟨.haNotification, .haPersistentNotification, .added, sampleHex, sampleHex, none, none, none⟩

def samplePrincipal : String := "raspberry_docker_owner"

def sampleUrl : String := "https://home.example/callback"

/-- The hash of `sampleData`. -/
def sampleEvent : String := "ffbce354c7217396bd9be234406b8f0a0d782ba40e56e1eb7cdf571358ac7f81"

/-- The id of a subscription to notifications. -/
def sampleFirst : String := "6c659926937808e8d6c4c507ef9231ec6fe3795e4df3ba39f2d71a51166684fb"

/-- The id of a subscription to both topics. -/
def sampleSecond : String := "2f426af3d2ac6428d221431b09408c3ee4f496c810a7339d163c5f4ede3f4466"

/-- The hashes of the texts that occur. -/
def sampleDigests : List (String × String) :=
  [(sampleData.identityText, sampleEvent),
    (subscriptionText samplePrincipal [.haNotification] sampleUrl, sampleFirst),
    (subscriptionText samplePrincipal bothTopics sampleUrl, sampleSecond),
    (batchText .notificationSummary sampleFirst [sampleEvent],
      "df8523d939aa193547a0e436dd96c0ddaae0ce2013ca00c6225214d37fe4dd49"),
    (batchText .notificationSummary sampleSecond [sampleEvent],
      "067e93db0ad4f5394b4651bccd34ad8d56c67f3ae54daf15d33c4b39a0cd7d1f")]

/-- What the code computes from texts, in runs on fixed inputs. -/
@[reducible] def sampleTexts : Texts where
  sha256 s := ((lookup Prod.fst s sampleDigests).map Prod.snd).getD s
  size _ := 1024
  callbackParts url := if url = sampleUrl then some ⟨"home.example", "/callback", ""⟩ else none
  keyBytes secret := decide ("whsec_".toList <+: secret.toList)

def sampleStart : Desk State Reply Unit :=
  ⟨⟨.empty, 1000, none, none, ⟨[], [], [], [], []⟩⟩, none⟩

/-- Callbacks that give the challenge back, and responses that are accepted. -/
def sampleAnswer : ∀ q, Reply q
  | .verify .. => true
  | .post .. => some (200 : ℤ)

/-- The end of one more operation. -/
def sampleRun (op : Operation) (w : Desk State Reply Unit) : Desk State Reply Unit :=
  (Desk.advance sampleAnswer)^[30] ⟨w.state, some (@Operation.program sampleTexts samplePrincipal op)⟩

theorem sampleStart_reachable (clockOk : ℚ → ℚ → Prop) :
    (@registryMachine sampleTexts samplePrincipal clockOk).Reachable sampleStart :=
  .start ⟨⟨rfl, rfl⟩, rfl⟩

theorem sampleRun_started {clockOk : ℚ → ℚ → Prop} {w : Desk State Reply Unit} (op : Operation)
    (hw : (@registryMachine sampleTexts samplePrincipal clockOk).Reachable w) :
    (@registryMachine sampleTexts samplePrincipal clockOk).Reachable
      ⟨w.state, some (@Operation.program sampleTexts samplePrincipal op)⟩ := by
  have hfree : (@registryMachine sampleTexts samplePrincipal clockOk).Reachable ⟨w.state, none⟩ :=
    .step hw (.own .leave)
  exact .step hfree (.own (.start rfl ⟨op, rfl⟩))

theorem sampleRun_reachable {clockOk : ℚ → ℚ → Prop} {w : Desk State Reply Unit} (op : Operation)
    (hw : (@registryMachine sampleTexts samplePrincipal clockOk).Reachable w) :
    (@registryMachine sampleTexts samplePrincipal clockOk).Reachable (sampleRun op w) :=
  reachable_advance_iterate sampleAnswer 30 (fun _ _ => trivial) (sampleRun_started op hw)

/-- The clock goes on. -/
def sampleLater (t : ℚ) (w : Desk State Reply Unit) : Desk State Reply Unit :=
  { w with state := { w.state with time := t } }

theorem sampleLater_reachable {clockOk : ℚ → ℚ → Prop} {w : Desk State Reply Unit} {t : ℚ}
    (ht : clockOk w.state.time t)
    (hw : (@registryMachine sampleTexts samplePrincipal clockOk).Reachable w) :
    (@registryMachine sampleTexts samplePrincipal clockOk).Reachable (sampleLater t w) :=
  .step hw (.others (.clock ht) trivial)

/-- A notification was stored. -/
def sampleStored : Desk State Reply Unit := sampleRun (.enqueue ⟨sampleData, 1000⟩) sampleStart

theorem sampleStored_reachable (clockOk : ℚ → ℚ → Prop) :
    (@registryMachine sampleTexts samplePrincipal clockOk).Reachable sampleStored :=
  sampleRun_reachable _ (sampleStart_reachable clockOk)

theorem events_conserved_sample : sampleStored.state.db.eventIds.count sampleEvent = 1 := by
  have hstored : sampleEvent ∈ sampleStored.state.record.accepted := by decide +kernel
  exact ((@events_conserved sampleTexts _ _ (sampleStored_reachable anyClock)).2.1 sampleEvent).1 hstored

end SmartHome.NativeEvents
